import BranchCatalog.Proofs.Load.Atomicity
import BranchCatalog.Proofs.Load.Progress
import BranchCatalog.Proofs.Load.Refusal
import Mathlib.Data.Finset.Card
import Mathlib.Data.Finset.Option

namespace BranchCatalog

open Loading

/-- A table has grown by a number of rows, which stand after those that it had. -/
def Table.GrownBy {Row : Type} (old new : Table Row) (count : Nat) : Prop :=
  ∃ added, new.rows = old.rows ++ added ∧ added.length = count

section GrownBy

variable {Row : Type} {old new : Table Row} {count : Nat}

theorem Table.GrownBy.refl (table : Table Row) : table.GrownBy table 0 :=
  ⟨[], (List.append_nil _).symm, rfl⟩

/-- A table that takes a row in has grown by one more. -/
theorem Table.GrownBy.insert (grown : old.GrownBy new count) (row : Row) :
    old.GrownBy (new.insert row) (count + 1) := by
  obtain ⟨added, rows, size⟩ := grown
  refine ⟨added ++ [⟨new.lastId + 1, row⟩], ?_, ?_⟩
  · rw [Table.insert, rows, List.append_assoc]
  · rw [List.length_append, List.length_singleton, size]

end GrownBy

/-- The file names of events, where an event without one does not count. -/
def filenamesOf (events : List Event) : Finset Text :=
  ((events.map Event.filename).filter (· ≠ [])).toFinset

/-- The name of a tree that has a file name. -/
def Event.declaredName? : Event → Option Text
  | tree location finding => if location.filename = [] then none else some finding.name
  | _ => none

theorem declaredName?_of_not_tree {event : Event} (other : event.isTree = false) :
    event.declaredName? = none := by
  cases event with
  | tree => contradiction
  | file | branch | note => rfl

/-- The names of the trees among events, where a tree without a file name does not count. -/
def treeNamesOf (events : List Event) : Finset Text :=
  (events.filterMap Event.declaredName?).toFinset

section Names

variable {events : List Event} {event : Event}

/-- An event without a file name names no file. -/
theorem filenamesOf_concat_of_unnamed (unnamed : event.filename = []) :
    filenamesOf (events ++ [event]) = filenamesOf events := by
  simp [filenamesOf, unnamed]

/-- An event with a file name adds it to the names. -/
theorem filenamesOf_concat_of_named (named : event.filename ≠ []) :
    filenamesOf (events ++ [event]) = {event.filename} ∪ filenamesOf events := by
  simp [filenamesOf, named]

/-- An event adds the name of the tree that it declares. -/
theorem treeNamesOf_concat :
    treeNamesOf (events ++ [event]) = event.declaredName?.toFinset ∪ treeNamesOf events := by
  cases named : event.declaredName? <;> simp [treeNamesOf, named]

end Names

/-- Counts are true of tables that have grown from old ones while files and trees of some names were met:
each count of rows is the number of rows that its table has gained, the files are those of all names, though
only names that were not stored before have gained a row, and the trees that are not duplicates are as many
as their names. -/
structure LoadCounts.Tally (counts : LoadCounts) (old new : Tables) (filenames treeNames : Finset Text) :
    Prop where
  files : counts.files = filenames.card
  storedFiles : old.files.GrownBy new.files (filenames.filter fun name => old.fileId? name = none).card
  trees : old.trees.GrownBy new.trees counts.trees
  branches : old.branches.GrownBy new.branches counts.branches
  comments : old.comments.GrownBy new.comments counts.comments
  assignments : old.assignments.GrownBy new.assignments counts.assignments
  duplicateTrees : counts.duplicateTrees + treeNames.card = counts.trees

namespace Store

theorem insertFile_of_stored {store : Store} {filename : Text} {id : Id}
    (found : store.tables.fileId? filename = some id) : store.insertFile filename = (id, store) := by
  simp only [insertFile, found]

theorem insertFile_of_new {store : Store} {filename : Text}
    (new : store.tables.fileId? filename = none) :
    store.insertFile filename = (store.tables.files.lastId + 1,
      { store with tables := { store.tables with files := store.tables.files.insert filename } }) := by
  simp only [insertFile, new]
  rfl

end Store

namespace Loader

/-- The counts of a loader are true, and the loader has met the files and trees of the names. -/
structure Counted (old : Tables) (filenames treeNames : Finset Text) (loader : Loader) : Prop where
  known : ∀ filename, (loader.files.lookup filename).isSome ↔ filename ∈ filenames
  stored : ∀ filename, (loader.store.tables.fileId? filename).isSome ↔
    (old.fileId? filename).isSome ∨ filename ∈ filenames
  declared : ∀ treeName, (loader.latestTrees.lookup treeName).isSome ↔ treeName ∈ treeNames
  tally : loader.counts.Tally old loader.store.tables filenames treeNames

/-- A loader at its start has counted nothing. -/
theorem counted_start (store : Store) : (start store).Counted store.tables ∅ ∅ where
  known _ := by simp [start]
  stored _ := by simp [start]
  declared _ := by simp [start]
  tally := ⟨rfl, .refl _, .refl _, .refl _, .refl _, .refl _, rfl⟩

variable {old : Tables} {filenames treeNames : Finset Text} {loader : Loader} {event : Event}

theorem Counted.known_cons (counted : loader.Counted old filenames treeNames) {filename : Text} (id : Id)
    (other : Text) :
    (((filename, id) :: loader.files).lookup other).isSome ↔ other ∈ {filename} ∪ filenames := by
  rw [lookup_cons_ite]
  split
  · next same => simp [same]
  · next different => simp [counted.known, Ne.symm different]

/-- A new file name adds one to the number of names. -/
theorem Counted.files_succ (counted : loader.Counted old filenames treeNames) {filename : Text}
    (new : filename ∉ filenames) : loader.counts.files + 1 = ({filename} ∪ filenames).card := by
  rw [Finset.singleton_union, Finset.card_insert_of_notMem new, counted.tally.files]

/-- A file is counted on its first use, and gains a row when its name was not stored before. -/
theorem Counted.fileId (counted : loader.Counted old filenames treeNames) (named : event.filename ≠ []) :
    ∃ file seen, outcome (fileId event) loader = (.ok file, seen) ∧
      seen.Counted old ({event.filename} ∪ filenames) treeNames := by
  cases known : loader.files.lookup event.filename with
  | some id =>
      have member : event.filename ∈ filenames := (counted.known _).mp (by rw [known]; rfl)
      refine ⟨id, loader, outcome_fileId_of_known named known, ?_⟩
      rwa [Finset.singleton_union, Finset.insert_eq_of_mem member]
  | none =>
      have new : event.filename ∉ filenames := by
        rw [← counted.known, known]
        exact Bool.false_ne_true
      refine ⟨_, _, outcome_fileId_of_new named known, ?_⟩
      cases found : loader.store.tables.fileId? event.filename with
      | some id =>
          have before : old.fileId? event.filename ≠ none :=
            Option.isSome_iff_ne_none.mp
              (((counted.stored _).mp (by rw [found]; rfl)).resolve_right new)
          rw [Store.insertFile_of_stored found]
          refine ⟨counted.known_cons id, ?_, counted.declared,
            { counted.tally with files := counted.files_succ new, storedFiles := ?_ }⟩
          · intro other
            rw [counted.stored, Finset.mem_union, Finset.mem_singleton]
            have stored : other = event.filename → (old.fileId? other).isSome := by
              rintro rfl
              exact Option.isSome_iff_ne_none.mpr before
            tauto
          · rw [Finset.singleton_union, Finset.filter_insert, if_neg before]
            exact counted.tally.storedFiles
      | none =>
          have before : old.fileId? event.filename = none := by
            have missing := counted.stored event.filename
            simpa [found, new] using missing
          rw [Store.insertFile_of_new found]
          refine ⟨counted.known_cons _, ?_, counted.declared,
            { counted.tally with files := counted.files_succ new, storedFiles := ?_ }⟩
          · intro other
            have stored := counted.stored other
            rw [Tables.fileId?_insert, Option.isSome_or, Bool.or_eq_true, stored]
            by_cases same : event.filename = other <;> simp [same, Ne.symm]
          · rw [Finset.singleton_union, Finset.filter_insert, if_pos before,
              Finset.card_insert_of_notMem]
            · exact counted.tally.storedFiles.insert _
            · exact fun member => new (Finset.mem_filter.mp member).1

/-- A tree is counted with its row, and as a duplicate when its name was declared before. -/
theorem Counted.applyTree (counted : loader.Counted old filenames treeNames) {file : Id}
    (contained : loader.store.tables.files.contains file = true) (location : Location)
    (finding : TreeFinding) :
    (outcome (applyTree location finding file) loader).2.Counted old filenames
      ({finding.name} ∪ treeNames) := by
  have inserted : loader.store.insertTree
      ⟨finding.name, finding.title, finding.variableName, file, location.line⟩ = .ok (_, _) :=
    if_pos contained
  rw [outcome_applyTree inserted]
  refine ⟨counted.known, counted.stored, ?_,
    { counted.tally with trees := counted.tally.trees.insert _, duplicateTrees := ?_ }⟩
  · intro treeName
    rw [lookup_cons_ite]
    split
    · next same => simp [same]
    · next different => simp [counted.declared, Ne.symm different]
  · have before := counted.tally.duplicateTrees
    have declared := counted.declared finding.name
    rw [Finset.singleton_union]
    by_cases member : finding.name ∈ treeNames
    · rw [if_pos (declared.mpr member), Finset.insert_eq_of_mem member]
      show loader.counts.duplicateTrees + 1 + _ = loader.counts.trees + 1
      omega
    · rw [if_neg (mt declared.mp member), Finset.card_insert_of_notMem member]
      show loader.counts.duplicateTrees + 0 + _ = loader.counts.trees + 1
      omega

/-- A branch is counted with its row; nothing is counted when it is refused. -/
theorem Counted.applyBranch (counted : loader.Counted old filenames treeNames) (location : Location)
    (finding : BranchFinding) (file : Id) :
    (outcome (applyBranch location finding file) loader).2.Counted old filenames treeNames := by
  cases resolved : loader.resolveTree finding.treeName file with
  | none =>
      rw [outcome_applyBranch_of_unknown resolved]
      exact counted
  | some tree =>
      cases inserted : loader.store.insertBranch ⟨tree, finding.name, finding.leafDefinition,
          finding.valueVariable, file, location.line⟩ with
      | error cause =>
          rw [outcome_applyBranch_of_error resolved inserted]
          exact counted
      | ok entry =>
          obtain ⟨id, store⟩ := entry
          rw [outcome_applyBranch resolved inserted]
          unfold Store.insertBranch at inserted
          split at inserted <;> cases inserted
          exact ⟨counted.known, counted.stored, counted.declared,
            { counted.tally with branches := counted.tally.branches.insert _ }⟩

/-- A note is counted with its row; nothing is counted when it is refused. -/
theorem Counted.applyNote (counted : loader.Counted old filenames treeNames) (kind : NoteKind)
    (location : Location) (finding : NoteFinding) (file : Id) :
    (outcome (applyNote kind location finding file) loader).2.Counted old filenames treeNames := by
  cases resolved : loader.resolveBranch finding.treeName finding.branchName finding.valueVariable file with
  | none =>
      rw [outcome_applyNote_of_unknown resolved]
      exact counted
  | some branch =>
      cases inserted : loader.store.insertNote kind ⟨finding.text, branch, file, location.line⟩ with
      | error cause =>
          rw [outcome_applyNote_of_error resolved inserted]
          exact counted
      | ok entry =>
          obtain ⟨id, store⟩ := entry
          rw [outcome_applyNote resolved inserted]
          unfold Store.insertNote at inserted
          split at inserted <;> cases inserted
          cases kind with
          | comment =>
              exact ⟨counted.known, counted.stored, counted.declared,
                { counted.tally with comments := counted.tally.comments.insert _ }⟩
          | assignment =>
              exact ⟨counted.known, counted.stored, counted.declared,
                { counted.tally with assignments := counted.tally.assignments.insert _ }⟩

/-- Once the file of an event is known, only a tree has a name to be met. -/
theorem Counted.applyRest (counted : loader.Counted old filenames treeNames) {file : Id}
    (contained : loader.store.tables.files.contains file = true) (named : event.filename ≠ []) :
    (outcome (applyRest file event) loader).2.Counted old filenames
      (event.declaredName?.toFinset ∪ treeNames) := by
  cases event with
  | file filename => rwa [declaredName?_of_not_tree rfl, Option.toFinset_none, Finset.empty_union]
  | tree location finding =>
      have name : (Event.tree location finding).declaredName? = some finding.name := if_neg named
      rw [name, Option.toFinset_some]
      exact counted.applyTree contained location finding
  | branch location finding =>
      rw [declaredName?_of_not_tree rfl, Option.toFinset_none, Finset.empty_union]
      exact counted.applyBranch location finding file
  | note kind location finding =>
      rw [declaredName?_of_not_tree rfl, Option.toFinset_none, Finset.empty_union]
      exact counted.applyNote kind location finding file

/-- One more event keeps the counts true, whether it is applied or refused. -/
theorem Counted.apply {events : List Event} (knows : loader.KnowsFiles)
    (counted : loader.Counted old (filenamesOf events) (treeNamesOf events)) (event : Event) :
    (outcome (apply event) loader).2.Counted old (filenamesOf (events ++ [event]))
      (treeNamesOf (events ++ [event])) := by
  by_cases unnamed : event.filename = []
  · have noName : event.declaredName? = none := by
      cases event with
      | tree location finding => exact if_pos unnamed
      | file | branch | note => rfl
    rw [apply_eq, outcome_bind_error (outcome_fileId_of_unnamed unnamed loader),
      filenamesOf_concat_of_unnamed unnamed, treeNamesOf_concat, noName, Option.toFinset_none,
      Finset.empty_union]
    exact counted
  · obtain ⟨file, seen, answered, met⟩ := counted.fileId unnamed
    have contained := (knows.fileId event).2 file (congrArg Prod.fst answered)
    rw [answered] at contained
    rw [apply_eq, outcome_bind_ok answered, filenamesOf_concat_of_named unnamed, treeNamesOf_concat]
    exact met.applyRest contained unnamed

/-- The counts are true after every list of events, so at every point of one. -/
theorem counted_applyEach (store : Store) (events : List Event) :
    ((start store).applyEach events).Counted store.tables (filenamesOf events) (treeNamesOf events) := by
  induction events using List.reverseRecOn with
  | nil => exact counted_start store
  | append_singleton events event inductionHypothesis =>
      rw [applyEach_concat]
      exact inductionHypothesis.apply (reachable_applyEach (.start store) events).knowsFiles event

end Loader

/-- The counts of a new loader are true at every point of every list of events that are applied one after
another, also after events that are refused; and the counts that a successful load returns are those for
its events. -/
theorem counts_tally (store : Store) :
    (∀ events : List Event, ((Loader.start store).applyEach events).counts.Tally store.tables
      ((Loader.start store).applyEach events).store.tables (filenamesOf events) (treeNamesOf events)) ∧
    ∀ items counts after, store.load items = (.ok counts, after) →
      ∃ events, items = events.map .ok ∧
        counts.Tally store.tables after.tables (filenamesOf events) (treeNamesOf events) := by
  refine ⟨fun events => (Loader.counted_applyEach store events).tally, ?_⟩
  intro items counts after succeeded
  have closed : store.begun = none := by
    by_contra opened
    rw [Store.load_of_begun opened] at succeeded
    cases succeeded
  rw [Store.load_of_closed closed] at succeeded
  cases applied : outcome (Loader.applyAll items) (Loader.ofStore store) with
  | mk answer loader =>
      rw [applied] at succeeded
      cases answer with
      | error fault => cases succeeded
      | ok =>
          obtain ⟨events, rfl, rfl⟩ := Loader.exists_events_of_applyAll applied
          cases succeeded
          exact ⟨events, rfl, (Loader.counted_applyEach _ events).tally⟩

/-- Of four events in three files, one of them stored before, two are refused: a branch of a tree that is
not declared, which counts its file, and a comment without a file name. -/
theorem counts_tally_of_refused_events :
    let store : Store := .ofTables { Tables.empty with files := Table.empty.insert ['a'] }
    let trees : List Event := [.tree ⟨['a'], 1⟩ ⟨['t'], [], ['v']⟩, .tree ⟨['b'], 1⟩ ⟨['t'], [], ['v']⟩]
    let items : List (Except Fault Event) := trees.map .ok
    let events := trees ++ [.branch ⟨['c'], 1⟩ ⟨['u'], ['x'], ['x', '/', 'I'], ['x']⟩,
      .note .comment ⟨[], 2⟩ ⟨['t'], ['x'], ['x'], ['/', '/']⟩]
    let loader := (Loader.start store).applyEach events
    loader.counts = ⟨3, 2, 0, 0, 0, 1⟩ ∧ loader.store.tables.files.size = 3 ∧
      loader.counts.Tally store.tables loader.store.tables (filenamesOf events) (treeNamesOf events) ∧
      ∃ after, store.load items = (.ok ⟨2, 2, 0, 0, 0, 1⟩, after) ∧
        ∃ loaded, items = loaded.map .ok ∧
          LoadCounts.Tally ⟨2, 2, 0, 0, 0, 1⟩ store.tables after.tables (filenamesOf loaded)
            (treeNamesOf loaded) := by
  intro store trees items events loader
  obtain ⟨each, loaded⟩ := counts_tally store
  have counted : loader.counts = ⟨3, 2, 0, 0, 0, 1⟩ ∧ loader.store.tables.files.size = 3 := by
    decide +kernel
  have answered : (store.load items).1 = .ok ⟨2, 2, 0, 0, 0, 1⟩ := by decide +kernel
  have succeeded : store.load items = (.ok ⟨2, 2, 0, 0, 0, 1⟩, (store.load items).2) :=
    Prod.ext answered rfl
  exact ⟨counted.1, counted.2, each events, _, succeeded, loaded _ _ _ succeeded⟩

end BranchCatalog
