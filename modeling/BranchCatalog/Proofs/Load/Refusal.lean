/-
This file says what a refused event leaves behind: what merely seeing its file would have left. Events
applied one after another, the refused ones among them, come to what the others come to on their own.
-/

import BranchCatalog.Proofs.Load.Outcome
import BranchCatalog.Proofs.Store.Append
import Mathlib.Data.List.Induction

namespace BranchCatalog

open Loading

namespace Store

/-- A store after one more insertion. -/
inductive InsertedInto (store : Store) : Store → Prop where
  | file (filename : Text) : InsertedInto store (store.insertFile filename).2
  | tree {tree : Tree} {id : Id} {after : Store} :
      store.insertTree tree = .ok (id, after) → InsertedInto store after
  | branch {branch : Branch} {id : Id} {after : Store} :
      store.insertBranch branch = .ok (id, after) → InsertedInto store after
  | note {kind : NoteKind} {note : Note} {id : Id} {after : Store} :
      store.insertNote kind note = .ok (id, after) → InsertedInto store after

theorem KeptByInsertions.of_insertedInto {property : Store → Prop} (kept : KeptByInsertions property)
    {store after : Store} (inserted : store.InsertedInto after) (before : property store) :
    property after := by
  cases inserted with
  | file filename => exact kept.file store filename before
  | tree inserted => exact kept.tree store _ _ after inserted before
  | branch inserted => exact kept.branch store _ _ after inserted before
  | note inserted => exact kept.note store _ _ _ after inserted before

/-- The id that a file name is stored under is an id of the table. -/
theorem contains_insertFile (store : Store) (filename : Text) :
    (store.insertFile filename).2.tables.files.contains (store.insertFile filename).1 = true := by
  unfold insertFile
  split
  · next found => exact Tables.contains_of_fileId? found
  · exact (Table.contains_insert _ _ _).trans (Bool.or_eq_true_iff.mpr (Or.inr (decide_eq_true rfl)))

theorem containsFile_keptByInsertions (id : Id) :
    KeptByInsertions fun store => store.tables.files.contains id = true where
  file store filename before := by
    unfold insertFile
    split
    · exact before
    · rw [Table.contains_insert, before, Bool.true_or]
  tree store tree _ after inserted before := by
    unfold insertTree at inserted
    split at inserted <;> cases inserted
    exact before
  branch store branch _ after inserted before := by
    unfold insertBranch at inserted
    split at inserted <;> cases inserted
    exact before
  note store kind note _ after inserted before := by
    unfold insertNote at inserted
    split at inserted <;> cases inserted
    cases kind <;> exact before

end Store

namespace Loader

/-- A loader is reachable when it comes from a new one by events, whether these are applied or refused,
and by insertions that others make into the store. While there is a loader, nobody can begin or end a
transaction of its store. -/
inductive Reachable : Loader → Prop where
  | start (store : Store) : Reachable (start store)
  | event {loader : Loader} (event : Event) :
      Reachable loader → Reachable (outcome (apply event) loader).2
  | insertion {loader : Loader} {store : Store} :
      Reachable loader → loader.store.InsertedInto store → Reachable { loader with store }

/-- The files that a loader knows are there. -/
def KnowsFiles (loader : Loader) : Prop :=
  ∀ entry ∈ loader.files, loader.store.tables.files.contains entry.2 = true

section Files

variable {loader after : Loader} {event : Event} {file : Id}

/-- The file of an event is known, and is there, once its id has been found. -/
theorem KnowsFiles.fileId (knows : loader.KnowsFiles) (event : Event) :
    (outcome (fileId event) loader).2.KnowsFiles ∧
      ∀ file, (outcome (fileId event) loader).1 = .ok file →
        (outcome (fileId event) loader).2.store.tables.files.contains file = true := by
  by_cases unnamed : event.filename = []
  · rw [outcome_fileId_of_unnamed unnamed]
    exact ⟨knows, nofun⟩
  · cases known : loader.files.lookup event.filename with
    | some id =>
        rw [outcome_fileId_of_known unnamed known]
        refine ⟨knows, ?_⟩
        rintro file ⟨⟩
        obtain ⟨earlier, later, split, -⟩ := List.lookup_eq_some_iff.mp known
        exact knows (event.filename, id) (by simp [split])
    | none =>
        rw [outcome_fileId_of_new unnamed known]
        have inserted := loader.store.contains_insertFile event.filename
        refine ⟨List.forall_mem_cons.mpr ⟨inserted, ?_⟩, ?_⟩
        · intro entry member
          exact (Store.containsFile_keptByInsertions entry.2).file _ _ (knows entry member)
        · rintro file ⟨⟩
          exact inserted

theorem files_applyRest (file : Id) (event : Event) (loader : Loader) :
    (outcome (applyRest file event) loader).2.files = loader.files := by
  cases event with
  | file filename => rfl
  | tree location finding =>
      simp only [applyRest, applyTree, outcome_bind, outcome_get, outcome_modify, outcome_insert]
      cases loader.store.insertTree _ <;> rfl
  | branch location finding =>
      rw [applyRest]
      cases resolved : loader.resolveTree finding.treeName file with
      | none => rw [outcome_applyBranch_of_unknown resolved]
      | some tree =>
          cases inserted : loader.store.insertBranch _ with
          | error cause => rw [outcome_applyBranch_of_error resolved inserted]
          | ok entry => rw [outcome_applyBranch resolved inserted]
  | note kind location finding =>
      rw [applyRest]
      cases resolved : loader.resolveBranch finding.treeName finding.branchName finding.valueVariable
          file with
      | none => rw [outcome_applyNote_of_unknown resolved]
      | some branch =>
          cases inserted : loader.store.insertNote kind _ with
          | error cause => rw [outcome_applyNote_of_error resolved inserted]
          | ok entry => rw [outcome_applyNote resolved inserted]

theorem KnowsFiles.applyRest (knows : loader.KnowsFiles) (file : Id) (event : Event) :
    (outcome (applyRest file event) loader).2.KnowsFiles := by
  intro entry member
  rw [files_applyRest] at member
  exact maintains_applyRest (Store.containsFile_keptByInsertions entry.2) file event loader
    (knows entry member)

/-- A loader knows the files of its store also after an event, be it refused. -/
theorem KnowsFiles.apply (knows : loader.KnowsFiles) (event : Event) :
    (outcome (apply event) loader).2.KnowsFiles := by
  have found := (knows.fileId event).1
  rw [apply_eq, outcome_bind]
  cases answered : outcome (Loader.fileId event) loader with
  | mk answer seen =>
      rw [answered] at found
      cases answer with
      | error fault => exact found
      | ok file => exact found.applyRest file event

/-- A reachable loader knows only files that are there. -/
theorem Reachable.knowsFiles (reached : loader.Reachable) : loader.KnowsFiles := by
  induction reached with
  | start store => exact fun _ member => absurd member List.not_mem_nil
  | event event _ knows => exact knows.apply event
  | insertion _ inserted knows =>
      intro entry member
      exact (Store.containsFile_keptByInsertions entry.2).of_insertedInto inserted (knows entry member)

end Files

section Refused

variable {loader after : Loader} {event : Event} {fault : Fault}

/-- What comes after the file of an event leaves no trace when it fails, provided that the file is there:
then a tree, which is counted as a duplicate before it is stored, is not refused. -/
theorem eq_of_applyRest_error {file : Id} (stored : loader.store.tables.files.contains file = true)
    (refused : outcome (applyRest file event) loader = (.error fault, after)) : after = loader := by
  cases event with
  | file filename => cases refused
  | tree location finding =>
      have inserted : ∃ entry, loader.store.insertTree
          ⟨finding.name, finding.title, finding.variableName, file, location.line⟩ = .ok entry := by
        simp only [Store.insertTree, stored, if_true, Except.ok.injEq, exists_eq']
      obtain ⟨⟨id, store⟩, inserted⟩ := inserted
      rw [applyRest, outcome_applyTree inserted] at refused
      cases refused
  | branch location finding => exact traceless_applyBranch location finding file _ _ _ refused
  | note kind location finding => exact traceless_applyNote kind location finding file _ _ _ refused

/-- An event without a file name leaves the loader as it was. -/
theorem eq_of_refused_unnamed (unnamed : event.filename = [])
    (refused : outcome (apply event) loader = (.error fault, after)) : after = loader := by
  rw [apply_eq, outcome_bind_error (outcome_fileId_of_unnamed unnamed loader)] at refused
  exact (Prod.mk.inj refused).2.symm

/-- The id of a file depends on nothing of an event but its file name. -/
theorem fileId_eq_of_named (named : event.filename ≠ []) :
    fileId event = fileId (.file event.filename) := by
  have filled : event.filename.isEmpty = false := by simpa using named
  have same : (Event.file event.filename).filename = event.filename := rfl
  simp only [fileId, same, filled, Bool.false_eq_true, if_false]

theorem outcome_fileId_of_named (named : event.filename ≠ []) (loader : Loader) :
    ∃ file seen, outcome (fileId event) loader = (.ok file, seen) := by
  cases known : loader.files.lookup event.filename with
  | some id => exact ⟨_, _, outcome_fileId_of_known named known⟩
  | none => exact ⟨_, _, outcome_fileId_of_new named known⟩

/-- A refused event with a file name leaves the loader as seeing its file leaves it. -/
theorem outcome_file_of_refused (knows : loader.KnowsFiles) (named : event.filename ≠ [])
    (refused : outcome (apply event) loader = (.error fault, after)) :
    outcome (apply (.file event.filename)) loader = (.ok (), after) := by
  obtain ⟨file, seen, answered⟩ := outcome_fileId_of_named named loader
  have stored := (knows.fileId event).2 file (congrArg Prod.fst answered)
  rw [answered] at stored
  rw [apply_eq, outcome_bind_ok answered] at refused
  obtain rfl := eq_of_applyRest_error stored refused
  rw [fileId_eq_of_named named] at answered
  rw [apply_eq, outcome_bind_ok answered]
  rfl

/-- Seeing a file changes nothing but the stored files, the known files and their count. -/
theorem eq_of_outcome_file {filename : Text}
    (applied : outcome (apply (.file filename)) loader = (.ok (), after)) :
    after = { loader with
      store := { loader.store with tables := { loader.store.tables with files := after.store.tables.files } }
      files := after.files
      counts := { loader.counts with files := after.counts.files } } := by
  rw [apply_eq, outcome_bind] at applied
  by_cases unnamed : (Event.file filename).filename = []
  · rw [outcome_fileId_of_unnamed unnamed] at applied
    cases applied
  · cases known : loader.files.lookup (Event.file filename).filename with
    | some id =>
        rw [outcome_fileId_of_known unnamed known] at applied
        cases applied
        rfl
    | none =>
        rw [outcome_fileId_of_new unnamed known] at applied
        cases applied
        simp only [Event.filename, Store.insertFile]
        split <;> rfl

end Refused

/-- Applies events one after another and goes on after those that are refused. -/
def applyEach (loader : Loader) (events : List Event) : Loader :=
  events.foldl (fun loader event => (outcome (apply event) loader).2) loader

/-- The last event meets the loader that all others leave. -/
theorem applyEach_concat (loader : Loader) (events : List Event) (event : Event) :
    loader.applyEach (events ++ [event]) = (outcome (Loader.apply event) (loader.applyEach events)).2 := by
  simp [applyEach]

theorem reachable_applyEach {loader : Loader} (reached : loader.Reachable) (events : List Event) :
    (loader.applyEach events).Reachable := by
  induction events using List.reverseRecOn with
  | nil => exact reached
  | append_singleton events event inductionHypothesis =>
      rw [applyEach_concat]
      exact inductionHypothesis.event event

/-- Items that are all applied are events, and going on after failures makes no difference to them. -/
theorem exists_events_of_applyAll {items : List (Except Fault Event)} {loader after : Loader}
    (applied : outcome (applyAll items) loader = (.ok (), after)) :
    ∃ events, items = events.map .ok ∧ after = loader.applyEach events := by
  induction items generalizing loader with
  | nil =>
      cases applied
      exact ⟨[], rfl, rfl⟩
  | cons item items inductionHypothesis =>
      cases item with
      | error fault => cases applied
      | ok event =>
          rw [applyAll, outcome_bind] at applied
          cases answered : outcome (Loader.apply event) loader with
          | mk answer between =>
              rw [answered] at applied
              cases answer with
              | error fault => cases applied
              | ok =>
                  obtain ⟨events, rfl, rfl⟩ := inductionHypothesis applied
                  refine ⟨event :: events, rfl, ?_⟩
                  simp only [applyEach, List.foldl_cons, answered]

/-- The events as they are applied one after another, but for each refused one merely its file, or nothing
when it has no file name. -/
def withoutRefused (loader : Loader) : List Event → List Event
  | [] => []
  | event :: events =>
    let (answer, after) := outcome (apply event) loader
    let applied :=
      match answer with
      | .ok () => [event]
      | .error _ => if event.filename = [] then [] else [.file event.filename]
    applied ++ after.withoutRefused events

/-- Without the refused events no event is refused, and all come to the same. -/
theorem applyAll_withoutRefused {loader : Loader} (knows : loader.KnowsFiles) (events : List Event) :
    outcome (applyAll ((loader.withoutRefused events).map .ok)) loader =
      (.ok (), loader.applyEach events) := by
  induction events generalizing loader with
  | nil => rfl
  | cons event events inductionHypothesis =>
      have rest := inductionHypothesis (knows.apply event)
      cases answered : outcome (apply event) loader with
      | mk answer after =>
          rw [answered] at rest
          simp only [withoutRefused, applyEach, List.foldl_cons, answered, List.map_append]
          cases answer with
          | ok =>
              rw [List.map_singleton, List.singleton_append, applyAll, outcome_bind_ok answered]
              exact rest
          | error fault =>
              by_cases unnamed : event.filename = []
              · obtain rfl := eq_of_refused_unnamed unnamed answered
                rw [if_pos unnamed]
                exact rest
              · have seen := outcome_file_of_refused knows unnamed answered
                rw [if_neg unnamed, List.map_singleton, List.singleton_append, applyAll,
                  outcome_bind_ok seen]
                exact rest

/-- A refused event without a file name changes nothing. One with a file name leaves the loader, its store
and its counts as seeing the file would have left them; no row of another table is written, and every name
resolves as before. So events that are applied one after another, with refused ones among them, come to
what they come to when the refused ones are replaced by their files, and then none is refused. -/
theorem refused_as_file {loader : Loader} (reached : loader.Reachable) :
    (∀ event fault after, outcome (apply event) loader = (.error fault, after) →
      (event.filename = [] → after = loader) ∧
      (event.filename ≠ [] →
        outcome (apply (.file event.filename)) loader = (.ok (), after) ∧
        after.store.begun = loader.store.begun ∧
        after.store.tables = { loader.store.tables with files := after.store.tables.files } ∧
        after.counts = { loader.counts with files := after.counts.files } ∧
        (∀ treeName file, after.resolveTree treeName file = loader.resolveTree treeName file) ∧
        ∀ treeName branchName valueVariable file,
          after.resolveBranch treeName branchName valueVariable file =
            loader.resolveBranch treeName branchName valueVariable file)) ∧
    ∀ events, outcome (applyAll ((loader.withoutRefused events).map .ok)) loader =
      (.ok (), loader.applyEach events) := by
  have knows := reached.knowsFiles
  refine ⟨?_, applyAll_withoutRefused knows⟩
  intro event fault after refused
  refine ⟨fun unnamed => eq_of_refused_unnamed unnamed refused, fun named => ?_⟩
  have seen := outcome_file_of_refused knows named refused
  refine ⟨seen, ?_⟩
  rw [eq_of_outcome_file seen]
  exact ⟨rfl, rfl, rfl, fun _ _ => rfl, fun _ _ _ _ => rfl⟩

/-- A branch in a new file, of a tree that no file declares, leaves only the file, also among others. -/
theorem refused_as_file_of_undeclared_tree :
    let tree : Event := .tree ⟨['a'], 1⟩ ⟨['t'], ['T'], ['v']⟩
    let branch : Event := .branch ⟨['b'], 2⟩ ⟨['u'], ['x'], ['x', '/', 'I'], ['x']⟩
    let loader := (outcome (apply tree) (start .empty)).2
    let after := (outcome (apply branch) loader).2
    outcome (apply (.file ['b'])) loader = (.ok (), after) ∧
      after.store.tables.files.size = 2 ∧ after.counts = ⟨2, 1, 0, 0, 0, 0⟩ ∧
      loader.withoutRefused [branch, tree] = [.file ['b'], tree] ∧
      outcome (applyAll [.ok (.file ['b']), .ok tree]) loader =
        (.ok (), loader.applyEach [branch, tree]) := by
  intro tree branch loader after
  obtain ⟨one, all⟩ := refused_as_file ((Reachable.start .empty).event tree)
  have refused : outcome (apply branch) loader = (.error (.unknownTree ⟨['b'], 2⟩ ['u']), after) := rfl
  have kept : loader.withoutRefused [branch, tree] = [.file ['b'], tree] := by decide +kernel
  have others := all [branch, tree]
  rw [kept] at others
  exact ⟨((one branch _ after refused).2 (by decide)).1, rfl, rfl, kept, others⟩

end Loader

end BranchCatalog
