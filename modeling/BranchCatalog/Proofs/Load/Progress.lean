import BranchCatalog.Proofs.Load.Agreement

namespace BranchCatalog

open Loading

/-- A new entry is found under its key and hides no other. -/
theorem lookup_cons_ite {Key Value : Type} [DecidableEq Key] [BEq Key] [LawfulBEq Key]
    (key wanted : Key) (value : Value) (entries : List (Key × Value)) :
    ((key, value) :: entries).lookup wanted =
      if key = wanted then some value else entries.lookup wanted := by
  by_cases same : key = wanted
  · rw [same, List.lookup_cons_self, if_pos rfl]
  · rw [List.lookup_cons, beq_false_of_ne (Ne.symm same), if_neg same]

/-- The id of the latest wanted event after one event more. -/
theorem latest?_rowId_concat {Row : Type} (table : Table Row) (accepted : Event → Bool)
    (wanted : List Event → Event → Bool) (events : List Event) (event : Event) :
    (latest? wanted (events ++ [event])).map (rowId table accepted (events ++ [event])) =
      if wanted events event then some (rowId table accepted (events ++ [event]) events.length)
      else (latest? wanted events).map (rowId table accepted events) := by
  rw [latest?_concat]
  split
  · rfl
  · cases found : latest? wanted events with
    | none => rfl
    | some position => rw [Option.map_some, Option.map_some, rowId_append _ _ (latest?_lt found)]

/-- An event that is not wanted leaves the latest row as it is. -/
theorem latest?_rowId_concat_of_not {Row : Type} (table : Table Row) (accepted : Event → Bool)
    {wanted : List Event → Event → Bool} {events : List Event} {event : Event}
    (refused : wanted events event = false) :
    (latest? wanted (events ++ [event])).map (rowId table accepted (events ++ [event])) =
      (latest? wanted events).map (rowId table accepted events) := by
  rw [latest?_rowId_concat, refused]
  rfl

namespace Tables

/-- A tree event gives a row of a tree, and no other event does. -/
theorem isSome_treeRow? (tables : Tables) (event : Event) :
    (tables.treeRow? event).isSome = event.isTree := by
  cases event <;> rfl

/-- A branch event gives a row of a branch, and no other event does. -/
theorem isSome_branchRow? (tables : Tables) (earlier : List Event) (event : Event) :
    (tables.branchRow? earlier event).isSome = event.isBranch := by
  cases event <;> rfl

theorem recording_concat_file (tables : Tables) (events : List Event) (filename : Text) :
    tables.recording (events ++ [.file filename]) = tables.recording events := by
  simp only [recording, append_along_concat]
  rfl

theorem recording_concat_tree {tables : Tables} {location : Location} {file : Id}
    (found : tables.fileId? location.filename = some file) (finding : TreeFinding)
    (events : List Event) :
    tables.recording (events ++ [.tree location finding]) =
      { tables.recording events with
        trees := (tables.recording events).trees.insert
          (Tree.toRow ⟨finding.name, finding.title, finding.variableName, file, location.line⟩) } := by
  simp only [recording, append_along_concat, treeRow?, found]
  rfl

/-- A branch event adds the row of its branch under the tree that it refers to. -/
theorem recording_concat_branch {tables : Tables} {location : Location} {file : Id}
    (found : tables.fileId? location.filename = some file) {finding : BranchFinding}
    {events : List Event} {target : Nat}
    (targeted : treeTarget events finding.treeName location.filename = some target) :
    tables.recording (events ++ [.branch location finding]) =
      { tables.recording events with
        branches := (tables.recording events).branches.insert
          (Branch.toRow ⟨rowId tables.trees Event.isTree events target, finding.name,
            finding.leafDefinition, finding.valueVariable, file, location.line⟩) } := by
  simp only [recording, append_along_concat, branchRow?, found, targeted]
  rfl

/-- A note event adds the row of its note under the branch that it refers to. -/
theorem recording_concat_note {tables : Tables} {location : Location} {file : Id}
    (found : tables.fileId? location.filename = some file) (kind : NoteKind)
    {finding : NoteFinding} {events : List Event} {target : Nat}
    (targeted : branchTarget events finding.treeName finding.branchName finding.valueVariable
      location.filename = some target) :
    tables.recording (events ++ [.note kind location finding]) =
      (tables.recording events).withNotes kind (((tables.recording events).notes kind).insert
        (Note.toRow ⟨finding.text, rowId tables.branches Event.isBranch events target, file,
          location.line⟩)) := by
  simp only [recording, append_along_concat, noteRow?, found, targeted]
  cases kind <;> rfl

/-- A stored tree takes the id that its position gives. -/
theorem lastId_trees_recording (tables : Tables) (events : List Event) (event : Event)
    (chosen : event.isTree = true) :
    (tables.recording events).trees.lastId + 1 =
      rowId tables.trees Event.isTree (events ++ [event]) events.length := by
  rw [rowId_concat_length _ chosen]
  · rfl
  · exact length_along _ _ (fun _ => tables.isSome_treeRow?) events

/-- A stored branch takes the id that its position gives. -/
theorem lastId_branches_recording (tables : Tables) (events : List Event) (event : Event)
    (chosen : event.isBranch = true) :
    (tables.recording events).branches.lastId + 1 =
      rowId tables.branches Event.isBranch (events ++ [event]) events.length := by
  rw [rowId_concat_length _ chosen]
  · rfl
  · exact length_along _ _ tables.isSome_branchRow? events

end Tables

/-- One event more is counted as one more of its kind. -/
theorem LoadCounts.ofEvents_concat (events : List Event) (event : Event) (files : Nat) :
    { LoadCounts.ofEvents (events ++ [event]) with files } =
      match event with
      | .file _ => { LoadCounts.ofEvents events with files }
      | .tree _ finding =>
        { LoadCounts.ofEvents events with
          files
          trees := (LoadCounts.ofEvents events).trees + 1
          duplicateTrees := (LoadCounts.ofEvents events).duplicateTrees +
            if events.any (Event.declaresTree finding.name) then 1 else 0 }
      | .branch .. =>
        { LoadCounts.ofEvents events with
          files, branches := (LoadCounts.ofEvents events).branches + 1 }
      | .note kind .. => ({ LoadCounts.ofEvents events with files } : LoadCounts).addNote kind := by
  cases event with
  | file =>
      simp [LoadCounts.ofEvents, along_concat, Event.isTree, Event.isBranch, Event.isNote,
        Event.redeclaresTree]
  | tree location finding =>
      by_cases declared : events.any (Event.declaresTree finding.name) = true <;>
      simp [LoadCounts.ofEvents, along_concat, Event.isTree, Event.isBranch, Event.isNote,
        Event.redeclaresTree, declared]
  | branch =>
      simp [LoadCounts.ofEvents, along_concat, Event.isTree, Event.isBranch, Event.isNote,
        Event.redeclaresTree]
  | note kind =>
      cases kind <;>
      simp [LoadCounts.ofEvents, along_concat, Event.isTree, Event.isBranch, Event.isNote,
        Event.redeclaresTree, LoadCounts.addNote]

namespace Loader

variable {old : Tables} {known events earlier : List Event} {loader : Loader}

/-- The store of a following loader has the file of every id that the history gives. -/
theorem Follows.contains_file (follows : loader.Follows old known events) {filename : Text}
    {file : Id} (found : (old.withFilesOf known).fileId? filename = some file) :
    loader.store.tables.files.contains file = true := by
  have stored := follows.fileId?_eq filename
  rw [found] at stored
  exact Tables.contains_of_fileId? stored

section Kept

variable {event : Event}

/-- Only a tree changes what a tree name means in a file. -/
theorem Follows.treesInFile_concat (follows : loader.Follows old known events)
    (other : event.isTree = false) (treeName : Text) (file : Id) :
    loader.treesInFile.lookup (treeName, file) =
      (latest? (fun _ => declaresTreeIn (old.withFilesOf known) treeName file)
        (events ++ [event])).map (rowId old.trees Event.isTree (events ++ [event])) := by
  rw [latest?_rowId_concat_of_not, follows.treesInFile]
  cases event with
  | tree => contradiction
  | file | branch | note => rfl

/-- Only a tree changes what a tree name means in all files. -/
theorem Follows.latestTrees_concat (follows : loader.Follows old known events)
    (other : event.isTree = false) (treeName : Text) :
    loader.latestTrees.lookup treeName =
      (latest? (fun _ => Event.declaresTree treeName) (events ++ [event])).map
        (rowId old.trees Event.isTree (events ++ [event])) := by
  rw [latest?_rowId_concat_of_not, follows.latestTrees]
  cases event with
  | tree => contradiction
  | file | branch | note => rfl

/-- Only a branch changes what the names of a branch mean. -/
theorem Follows.branches_concat (follows : loader.Follows old known events)
    (other : event.isBranch = false) (tree : Id) (branchName valueVariable : Text) :
    loader.branches.lookup ⟨tree, branchName, valueVariable⟩ =
      (latest? (addsBranchUnder old.trees tree branchName valueVariable) (events ++ [event])).map
        (rowId old.branches Event.isBranch (events ++ [event])) := by
  rw [latest?_rowId_concat_of_not, follows.branches]
  cases event with
  | branch => contradiction
  | file | tree | note => rfl

end Kept

/-- A tree is stored and becomes the target of its name. -/
theorem Follows.applyTree (follows : loader.Follows old known events) {location : Location}
    {finding : TreeFinding} {file : Id}
    (found : (old.withFilesOf known).fileId? location.filename = some file) :
    ∃ after, outcome (applyTree location finding file) loader = (.ok (), after) ∧
      after.Follows old known (events ++ [.tree location finding]) := by
  have inserted : loader.store.insertTree
      ⟨finding.name, finding.title, finding.variableName, file, location.line⟩ =
      .ok (rowId old.trees Event.isTree (events ++ [.tree location finding]) events.length,
        { loader.store with
          tables := (old.withFilesOf known).recording (events ++ [.tree location finding]) }) := by
    have next := (old.withFilesOf known).lastId_trees_recording events
      (.tree location finding) rfl
    rw [Store.insertTree, if_pos (follows.contains_file found), follows.tables,
      Tables.recording_concat_tree found]
    exact congrArg (fun id => Except.ok (id, _)) next
  refine ⟨_, outcome_applyTree inserted, ?_⟩
  constructor
  · rfl
  · exact follows.files
  · intro treeName other
    rw [latest?_rowId_concat, lookup_cons_ite, follows.treesInFile]
    apply if_congr _ rfl rfl
    simp [declaresTreeIn, Event.declaresTree, Event.filename, found]
  · intro treeName
    rw [latest?_rowId_concat, lookup_cons_ite, follows.latestTrees]
    apply if_congr _ rfl rfl
    simp [Event.declaresTree]
  · exact follows.branches_concat rfl
  · simp only [LoadCounts.ofEvents_concat, follows.counts, follows.latestTrees,
      Option.isSome_map, isSome_latest?]

/-- A branch with a tree target is stored and becomes the target of its names. -/
theorem Follows.applyBranch (follows : loader.Follows old known events)
    (numbered : old.files.Numbered) {location : Location} {finding : BranchFinding} {file : Id}
    (found : (old.withFilesOf known).fileId? location.filename = some file) {target : Nat}
    (targeted : treeTarget events finding.treeName location.filename = some target) :
    ∃ after, outcome (applyBranch location finding file) loader = (.ok (), after) ∧
      after.Follows old known (events ++ [.branch location finding]) := by
  have resolved := follows.resolveTree numbered found finding.treeName
  rw [targeted, Option.map_some] at resolved
  have tree : loader.store.tables.trees.contains (rowId old.trees Event.isTree events target) =
      true := by
    obtain ⟨_, _, present, -⟩ := exists_tree_of_treeTarget targeted
    rw [follows.tables]
    exact contains_rowId _ (fun _ => (old.withFilesOf known).isSome_treeRow?) present rfl
  have inserted : loader.store.insertBranch ⟨rowId old.trees Event.isTree events target,
      finding.name, finding.leafDefinition, finding.valueVariable, file, location.line⟩ =
      .ok (rowId old.branches Event.isBranch (events ++ [.branch location finding]) events.length,
        { loader.store with
          tables := (old.withFilesOf known).recording (events ++ [.branch location finding]) }) := by
    have next := (old.withFilesOf known).lastId_branches_recording events
      (.branch location finding) rfl
    rw [Store.insertBranch, tree, follows.contains_file found, follows.tables,
      Tables.recording_concat_branch found targeted]
    exact congrArg (fun id => Except.ok (id, _)) next
  refine ⟨_, outcome_applyBranch resolved inserted, ?_⟩
  constructor
  · rfl
  · exact follows.files
  · exact follows.treesInFile_concat rfl
  · exact follows.latestTrees_concat rfl
  · intro tree branchName valueVariable
    rw [latest?_rowId_concat, lookup_cons_ite, follows.branches]
    apply if_congr _ rfl rfl
    simp [addsBranchUnder, targeted, and_comm, and_assoc]
  · simp only [LoadCounts.ofEvents_concat, follows.counts]

theorem Follows.applyNote (follows : loader.Follows old known events)
    (numbered : old.files.Numbered) {kind : NoteKind} {location : Location} {finding : NoteFinding}
    {file : Id} (found : (old.withFilesOf known).fileId? location.filename = some file)
    {target : Nat} (targeted : branchTarget events finding.treeName finding.branchName
      finding.valueVariable location.filename = some target) :
    ∃ after, outcome (applyNote kind location finding file) loader = (.ok (), after) ∧
      after.Follows old known (events ++ [.note kind location finding]) := by
  have resolved := follows.resolveBranch numbered found finding.treeName finding.branchName
    finding.valueVariable
  rw [targeted, Option.map_some] at resolved
  have branch : loader.store.tables.branches.contains
      (rowId old.branches Event.isBranch events target) = true := by
    obtain ⟨event, present, chosen⟩ := exists_branch_of_branchTarget targeted
    rw [follows.tables]
    exact contains_rowId _ (old.withFilesOf known).isSome_branchRow? present chosen
  have inserted : ∃ id, loader.store.insertNote kind ⟨finding.text,
      rowId old.branches Event.isBranch events target, file, location.line⟩ =
      .ok (id, { loader.store with
        tables := (old.withFilesOf known).recording (events ++ [.note kind location finding]) }) := by
    refine ⟨(((old.withFilesOf known).recording events).notes kind).lastId + 1, ?_⟩
    rw [Store.insertNote, branch, follows.contains_file found, follows.tables,
      Tables.recording_concat_note found kind targeted]
    rfl
  obtain ⟨id, inserted⟩ := inserted
  refine ⟨_, outcome_applyNote resolved inserted, ?_⟩
  constructor
  · rfl
  · exact follows.files
  · exact follows.treesInFile_concat rfl
  · exact follows.latestTrees_concat rfl
  · exact follows.branches_concat rfl
  · simp only [LoadCounts.ofEvents_concat, follows.counts]

theorem Follows.applyFile (follows : loader.Follows old known events) (filename : Text) :
    loader.Follows old known (events ++ [.file filename]) := by
  constructor
  · rw [follows.tables, Tables.recording_concat_file]
  · exact follows.files
  · exact follows.treesInFile_concat rfl
  · exact follows.latestTrees_concat rfl
  · exact follows.branches_concat rfl
  · simp only [LoadCounts.ofEvents_concat, follows.counts]

/-- An event that is not refused is applied, and the loader follows it too. -/
theorem Follows.apply_of_accepted (follows : loader.Follows old earlier earlier)
    (numbered : old.files.Numbered) {event : Event} (accepted : event.refusal? earlier = none) :
    ∃ after, outcome (apply event) loader = (.ok (), after) ∧
      after.Follows old (earlier ++ [event]) (earlier ++ [event]) := by
  obtain ⟨named, targeted⟩ := Event.refusal?_eq_none_iff.mp accepted
  obtain ⟨file, reached, filed, followed, found⟩ := follows.fileId named
  rw [apply, outcome_bind, filed]
  cases event with
  | file filename => exact ⟨reached, rfl, followed.applyFile filename⟩
  | tree location finding => exact followed.applyTree found
  | branch location finding =>
      obtain ⟨target, targeted⟩ := Option.isSome_iff_exists.mp targeted
      exact followed.applyBranch numbered found targeted
  | note kind location finding =>
      obtain ⟨target, targeted⟩ := Option.isSome_iff_exists.mp targeted
      exact followed.applyNote numbered found targeted

/-- An event that is refused fails with the fault of its refusal. -/
theorem Follows.apply_of_refused (follows : loader.Follows old earlier earlier)
    (numbered : old.files.Numbered) {event : Event} {fault : Fault}
    (refused : event.refusal? earlier = some fault) :
    (outcome (apply event) loader).1 = .error fault := by
  by_cases unnamed : event.filename = []
  · unfold Event.refusal? at refused
    rw [if_pos unnamed] at refused
    rw [apply, outcome_bind, outcome_fileId_of_unnamed unnamed, Option.some.inj refused]
  · obtain ⟨file, reached, filed, followed, found⟩ := follows.fileId unnamed
    unfold Event.refusal? at refused
    rw [if_neg unnamed] at refused
    rw [apply, outcome_bind, filed]
    cases event with
    | file | tree => contradiction
    | branch location finding =>
        have resolved : reached.resolveTree finding.treeName file =
            (treeTarget earlier finding.treeName location.filename).map
              (rowId old.trees Event.isTree earlier) :=
          followed.resolveTree numbered found finding.treeName
        cases targeted : treeTarget earlier finding.treeName location.filename with
        | some target => simp [Event.hasTarget, targeted] at refused
        | none =>
            rw [targeted] at resolved
            simp only [Event.hasTarget, targeted] at refused
            simp only [outcome_applyBranch_of_unknown resolved, ← Option.some.inj refused]
    | note kind location finding =>
        have resolved : reached.resolveBranch finding.treeName finding.branchName
              finding.valueVariable file =
            (branchTarget earlier finding.treeName finding.branchName finding.valueVariable
              location.filename).map (rowId old.branches Event.isBranch earlier) :=
          followed.resolveBranch numbered found _ _ _
        cases targeted : branchTarget earlier finding.treeName finding.branchName
            finding.valueVariable location.filename with
        | some target => simp [Event.hasTarget, targeted] at refused
        | none =>
            rw [targeted] at resolved
            simp only [Event.hasTarget, targeted] at refused
            simp only [outcome_applyNote_of_unknown resolved, ← Option.some.inj refused]

end Loader

end BranchCatalog
