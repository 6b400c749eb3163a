import BranchCatalog.Proofs.Load.Growth
import BranchCatalog.Proofs.Load.Outcome

namespace BranchCatalog

open Loading

/-- Holds for a branch of a name and a value variable whose tree target has the row with an id. -/
def addsBranchUnder (trees : Table TreeRow) (tree : Id) (branchName valueVariable : Text)
    (before : List Event) : Event → Bool
  | .branch location finding =>
    finding.name = branchName && finding.valueVariable = valueVariable &&
      (treeTarget before finding.treeName location.filename).map
        (rowId trees Event.isTree before) = some tree
  | _ => false

/-- A tree of a name in the file with an id. -/
def declaresTreeIn (tables : Tables) (treeName : Text) (file : Id) (event : Event) : Bool :=
  event.declaresTree treeName && tables.fileId? event.filename = some file

namespace Loader

/-- A loader follows events when its store and its names say what the events say. The files are those of
all events that are known, of which the last may not have been applied yet. -/
structure Follows (old : Tables) (known events : List Event) (loader : Loader) : Prop where
  tables : loader.store.tables = (old.withFilesOf known).recording events
  files : ∀ filename, loader.files.lookup filename =
    if filename ∈ known.map Event.filename then (old.withFilesOf known).fileId? filename else none
  treesInFile : ∀ treeName file, loader.treesInFile.lookup (treeName, file) =
    (latest? (fun _ => declaresTreeIn (old.withFilesOf known) treeName file) events).map
      (rowId old.trees Event.isTree events)
  latestTrees : ∀ treeName, loader.latestTrees.lookup treeName =
    (latest? (fun _ => Event.declaresTree treeName) events).map
      (rowId old.trees Event.isTree events)
  branches : ∀ tree branchName valueVariable,
    loader.branches.lookup ⟨tree, branchName, valueVariable⟩ =
      (latest? (addsBranchUnder old.trees tree branchName valueVariable) events).map
        (rowId old.branches Event.isBranch events)
  counts : loader.counts =
    { LoadCounts.ofEvents events with files := (known.map Event.filename).eraseDups.length }

/-- A loader that has met nothing follows an empty history. -/
theorem follows_start (store : Store) : (start store).Follows store.tables [] [] where
  tables := by
    simp [start, Tables.withFilesOf, Tables.recording, along, Table.append_nil]
  files _ := rfl
  treesInFile _ _ := rfl
  latestTrees _ := rfl
  branches _ _ _ := rfl
  counts := rfl

variable {old : Tables} {known events earlier : List Event} {event : Event} {loader : Loader}

/-- The store of a following loader knows exactly the files of the history. -/
theorem Follows.fileId?_eq (follows : loader.Follows old known events) (filename : Text) :
    loader.store.tables.fileId? filename = (old.withFilesOf known).fileId? filename := by
  rw [follows.tables]
  rfl

/-- A file that becomes known leaves what the loader knows of trees, branches and notes. -/
theorem Follows.withFile (follows : loader.Follows old earlier earlier)
    {files : List (Text × Id)} (store : Store) {count : Nat}
    (tables : store.tables = { loader.store.tables with
      files := (old.withFilesOf (earlier ++ [event])).files })
    (lookups : ∀ filename, files.lookup filename =
      if filename ∈ (earlier ++ [event]).map Event.filename then
        (old.withFilesOf (earlier ++ [event])).fileId? filename else none)
    (counted : count = ((earlier ++ [event]).map Event.filename).eraseDups.length) :
    Follows old (earlier ++ [event]) earlier
      { loader with store, files, counts := { loader.counts with files := count } } where
  tables := by rw [tables, Tables.recording_withFilesOf_append, follows.tables]
  files := lookups
  treesInFile treeName file := by
    rw [follows.treesInFile]
    congr 1
    apply latest?_congr
    intro before used later split
    have member : used.filename ∈ earlier.map Event.filename := by simp [split]
    obtain ⟨id, found⟩ := Option.isSome_iff_exists.mp
      (Tables.isSome_fileId?_withFilesOf old member)
    rw [declaresTreeIn, declaresTreeIn, found, Tables.fileId?_withFilesOf_concat found]
  latestTrees := follows.latestTrees
  branches := follows.branches
  counts := by rw [follows.counts, counted]

/-- The names of files with one more in front give the ids of all files that are known then. -/
theorem Follows.lookup_file (follows : loader.Follows old earlier earlier) {id : Id}
    (found : (old.withFilesOf (earlier ++ [event])).fileId? event.filename = some id)
    (filename : Text) :
    ((event.filename, id) :: loader.files).lookup filename =
      if filename ∈ (earlier ++ [event]).map Event.filename then
        (old.withFilesOf (earlier ++ [event])).fileId? filename else none := by
  by_cases same : event.filename = filename
  · subst same
    rw [List.lookup_cons_self, if_pos (by simp), found]
  · have member : filename ∈ (earlier ++ [event]).map Event.filename ↔
        filename ∈ earlier.map Event.filename := by simp [Ne.symm same]
    rw [List.lookup_cons, beq_false_of_ne (Ne.symm same), follows.files,
      Tables.fileId?_withFilesOf_concat_of_ne same, if_congr member rfl rfl]

/-- It counts each file name of the history once. -/
theorem Follows.counts_files (follows : loader.Follows old known events) :
    loader.counts.files = (known.map Event.filename).eraseDups.length := by
  rw [follows.counts]

/-- A file that was used before is known already. -/
theorem Follows.fileId_of_used (follows : loader.Follows old earlier earlier)
    (named : event.filename ≠ []) (used : event.filename ∈ earlier.map Event.filename) :
    ∃ id after, outcome (fileId event) loader = (.ok id, after) ∧
      after.Follows old (earlier ++ [event]) earlier ∧
      (old.withFilesOf (earlier ++ [event])).fileId? event.filename = some id := by
  obtain ⟨id, found⟩ := Option.isSome_iff_exists.mp
    (Tables.isSome_fileId?_withFilesOf old used)
  have same : old.withFilesOf (earlier ++ [event]) = old.withFilesOf earlier :=
    Tables.withFilesOf_concat_of_known (Or.inl used)
  have looked := follows.files event.filename
  rw [if_pos used, found] at looked
  have names : (earlier ++ [event]).map Event.filename =
      earlier.map Event.filename ++ [event.filename] := by simp
  refine ⟨id, loader, outcome_fileId_of_known named looked, ?_, by rw [same, found]⟩
  apply follows.withFile loader.store
  · rw [same, follows.tables]
    rfl
  · intro filename
    rw [follows.files, same, names]
    apply if_congr _ rfl rfl
    rw [List.mem_append, List.mem_singleton]
    exact ⟨Or.inl, fun either => either.elim (fun before => before) (· ▸ used)⟩
  · rw [names, eraseDups_concat, if_pos used, follows.counts_files]

/-- A file that was not used before gets the row that it has already, or else a new one. -/
theorem Follows.fileId_of_unused (follows : loader.Follows old earlier earlier)
    (named : event.filename ≠ []) (unused : event.filename ∉ earlier.map Event.filename) :
    ∃ id after, outcome (fileId event) loader = (.ok id, after) ∧
      after.Follows old (earlier ++ [event]) earlier ∧
      (old.withFilesOf (earlier ++ [event])).fileId? event.filename = some id := by
  have looked := follows.files event.filename
  rw [if_neg unused] at looked
  have counted : loader.counts.files + 1 =
      ((earlier ++ [event]).map Event.filename).eraseDups.length := by
    rw [List.map_append, List.map_singleton, eraseDups_concat, if_neg unused, List.length_append,
      follows.counts_files, List.length_singleton]
  have before := follows.fileId?_eq event.filename
  rw [Tables.fileId?_withFilesOf_of_unused old unused] at before
  refine ⟨_, _, outcome_fileId_of_new named looked, ?_⟩
  cases stored : old.fileId? event.filename with
  | some id =>
      have same : old.withFilesOf (earlier ++ [event]) = old.withFilesOf earlier :=
        Tables.withFilesOf_concat_of_known (Or.inr (by rw [stored, Option.isSome_some]))
      have found : (old.withFilesOf (earlier ++ [event])).fileId? event.filename = some id := by
        rw [same, Tables.fileId?_withFilesOf_of_unused old unused, stored]
      simp only [Store.insertFile, before, stored]
      refine ⟨follows.withFile _ ?_ (follows.lookup_file found) counted, found⟩
      rw [same, follows.tables]
      rfl
  | none =>
      have new := Tables.withFilesOf_concat_of_new unused stored
      have found : (old.withFilesOf (earlier ++ [event])).fileId? event.filename =
          some ((old.withFilesOf earlier).files.lastId + 1) := by
        rw [new, Tables.fileId?_insert, Tables.fileId?_withFilesOf_of_unused old unused, stored,
          if_pos rfl, Option.none_or]
      have files : loader.store.tables.files = (old.withFilesOf earlier).files := by
        rw [follows.tables]
        rfl
      simp only [Store.insertFile, before, stored, files]
      refine ⟨follows.withFile _ ?_ (follows.lookup_file found) counted, found⟩
      rw [new]

/-- The file of an event with a file name becomes known, under the id of its row. -/
theorem Follows.fileId (follows : loader.Follows old earlier earlier)
    (named : event.filename ≠ []) :
    ∃ id after, outcome (fileId event) loader = (.ok id, after) ∧
      after.Follows old (earlier ++ [event]) earlier ∧
      (old.withFilesOf (earlier ++ [event])).fileId? event.filename = some id := by
  by_cases used : event.filename ∈ earlier.map Event.filename
  · exact follows.fileId_of_used named used
  · exact follows.fileId_of_unused named used

/-- A tree name resolves to the row of its target. -/
theorem Follows.resolveTree (follows : loader.Follows old known events)
    (numbered : old.files.Numbered) {filename : Text} {file : Id}
    (found : (old.withFilesOf known).fileId? filename = some file) (treeName : Text) :
    loader.resolveTree treeName file =
      (treeTarget events treeName filename).map (rowId old.trees Event.isTree events) := by
  have sameFile : declaresTreeIn (old.withFilesOf known) treeName file =
      Event.declaresTreeOf treeName filename := by
    funext event
    rw [declaresTreeIn, Event.declaresTreeOf]
    congr 1
    rw [decide_eq_decide]
    constructor
    · intro other
      exact Tables.eq_of_fileId?_eq (Tables.numbered_withFilesOf numbered known) other found
    · intro same
      rw [same, found]
  rw [Loader.resolveTree, treeTarget, follows.treesInFile, follows.latestTrees, Option.map_or,
    sameFile]

/-- Branches under the row of a tree are branches whose own target is that tree. -/
theorem latest?_addsBranchUnder {treeName filename : Text} {target : Nat}
    (targeted : treeTarget events treeName filename = some target) (branchName valueVariable : Text) :
    latest? (addsBranchUnder old.trees (rowId old.trees Event.isTree events target) branchName
        valueVariable) events =
      latest? (addsBranchTo target branchName valueVariable) events := by
  apply latest?_congr
  intro before event later split
  cases event with
  | file | tree | note => rfl
  | branch location finding =>
      rw [addsBranchUnder, addsBranchTo]
      congr 1
      rw [decide_eq_decide]
      cases own : treeTarget before finding.treeName location.filename with
      | none => simp
      | some position =>
          have inside := treeTarget_lt own
          have kept := rowId_append old.trees Event.isTree inside
            (.branch location finding :: later)
          rw [← split] at kept
          rw [Option.map_some, Option.some.injEq, Option.some.injEq, ← kept]
          refine ⟨fun same => ?_, fun same => by rw [same]⟩
          obtain ⟨place, left, leftBefore, -⟩ := exists_tree_of_treeTarget own
          obtain ⟨_, right, rightAt, -⟩ := exists_tree_of_treeTarget targeted
          have leftAt : events[position]? = some (.tree place left) := by
            rw [split, List.getElem?_append_left inside, leftBefore]
          exact rowId_injective old.trees Event.isTree leftAt rightAt rfl rfl same

/-- The names of a branch resolve to the row of their target. -/
theorem Follows.resolveBranch (follows : loader.Follows old known events)
    (numbered : old.files.Numbered) {filename : Text} {file : Id}
    (found : (old.withFilesOf known).fileId? filename = some file)
    (treeName branchName valueVariable : Text) :
    loader.resolveBranch treeName branchName valueVariable file =
      (branchTarget events treeName branchName valueVariable filename).map
        (rowId old.branches Event.isBranch events) := by
  rw [Loader.resolveBranch, branchTarget, follows.resolveTree numbered found]
  cases targeted : treeTarget events treeName filename with
  | none => rfl
  | some target =>
      rw [Option.map_some, Option.bind_some, Option.bind_some, follows.branches,
        latest?_addsBranchUnder targeted]

end Loader

end BranchCatalog
