import BranchCatalog.Load
import BranchCatalog.Proofs.Failure

namespace BranchCatalog

namespace Loading

variable {Answer Next : Type}

/-- The outcome of a step is its answer or fault together with the loader that it leaves. -/
def outcome (step : Loading Answer) (loader : Loader) : Except Fault Answer × Loader :=
  step.run.run loader

/-- A step in sequence goes on from the loader that the first step leaves. -/
theorem outcome_bind (step : Loading Answer) (next : Answer → Loading Next) (loader : Loader) :
    outcome (step >>= next) loader =
      match outcome step loader with
      | (.ok answer, after) => outcome (next answer) after
      | (.error fault, after) => (.error fault, after) := by
  simp only [outcome, run_bind]
  cases step.run.run loader with
  | mk answer after => cases answer <;> rfl

theorem outcome_bind_ok {step : Loading Answer} {next : Answer → Loading Next}
    {loader after : Loader} {answer : Answer} (answered : outcome step loader = (.ok answer, after)) :
    outcome (step >>= next) loader = outcome (next answer) after := by
  rw [outcome_bind, answered]

theorem outcome_bind_error {step : Loading Answer} {next : Answer → Loading Next}
    {loader after : Loader} {fault : Fault} (failed : outcome step loader = (.error fault, after)) :
    outcome (step >>= next) loader = (.error fault, after) := by
  rw [outcome_bind, failed]

theorem outcome_pure (answer : Answer) (loader : Loader) :
    outcome (pure answer) loader = (.ok answer, loader) := rfl

theorem outcome_throw (fault : Fault) (loader : Loader) :
    outcome (throw fault : Loading Answer) loader = (.error fault, loader) := rfl

theorem outcome_get (loader : Loader) : outcome get loader = (.ok loader, loader) := rfl

theorem outcome_set (loader after : Loader) : outcome (set after) loader = (.ok ⟨⟩, after) := rfl

theorem outcome_modify (change : Loader → Loader) (loader : Loader) :
    outcome (modify change) loader = (.ok ⟨⟩, change loader) := rfl

/-- A step maintains a property of stores when it leaves a store with the property wherever it finds
one, whether it succeeds or not. -/
def Maintains (property : Store → Prop) (step : Loading Answer) : Prop :=
  ∀ loader, property loader.store → property (outcome step loader).2.store

variable {property : Store → Prop}

/-- Steps that maintain a property do so one after another. -/
theorem maintains_bind {step : Loading Answer} {next : Answer → Loading Next}
    (first : Maintains property step) (second : ∀ answer, Maintains property (next answer)) :
    Maintains property (step >>= next) := by
  intro loader before
  have kept := first loader before
  rw [outcome_bind]
  cases answered : outcome step loader with
  | mk answer after =>
      rw [answered] at kept
      cases answer with
      | error fault => exact kept
      | ok answer => exact second answer after kept

theorem maintains_throw (fault : Fault) : Maintains property (throw fault : Loading Answer) :=
  fun _ before => before

theorem maintains_pure (answer : Answer) : Maintains property (pure answer) :=
  fun _ before => before

theorem maintains_get : Maintains property get :=
  fun _ before => before

theorem maintains_modify {change : Loader → Loader}
    (same : ∀ loader, (change loader).store = loader.store) : Maintains property (modify change) := by
  intro loader before
  show property (change loader).store
  rwa [same loader]

/-- A step keeps the transaction when the tables to return to stay what they were. -/
def KeepsTransaction (step : Loading Answer) : Prop :=
  ∀ loader, (outcome step loader).2.store.begun = loader.store.begun

end Loading

namespace Store

theorem begun_insertFile (store : Store) (filename : Text) :
    (store.insertFile filename).2.begun = store.begun := by
  unfold insertFile
  split <;> rfl

theorem begun_insertTree {store after : Store} {tree : Tree} {id : Id}
    (inserted : store.insertTree tree = .ok (id, after)) : after.begun = store.begun := by
  unfold insertTree at inserted
  split at inserted
  · cases inserted
    rfl
  · contradiction

theorem begun_insertBranch {store after : Store} {branch : Branch} {id : Id}
    (inserted : store.insertBranch branch = .ok (id, after)) : after.begun = store.begun := by
  unfold insertBranch at inserted
  split at inserted
  · cases inserted
    rfl
  · contradiction

theorem begun_insertNote {store after : Store} {kind : NoteKind} {note : Note} {id : Id}
    (inserted : store.insertNote kind note = .ok (id, after)) : after.begun = store.begun := by
  unfold insertNote at inserted
  split at inserted
  · cases inserted
    rfl
  · contradiction

/-- A property of stores is kept by insertions when no insertion that succeeds takes it away. -/
structure KeptByInsertions (property : Store → Prop) : Prop where
  file : ∀ store filename, property store → property (store.insertFile filename).2
  tree : ∀ store tree id after, store.insertTree tree = .ok (id, after) →
    property store → property after
  branch : ∀ store branch id after, store.insertBranch branch = .ok (id, after) →
    property store → property after
  note : ∀ store kind note id after, store.insertNote kind note = .ok (id, after) →
    property store → property after

/-- No insertion opens or closes a transaction. -/
theorem begun_keptByInsertions (begun : Option Tables) :
    KeptByInsertions fun store => store.begun = begun where
  file store filename before := (store.begun_insertFile filename).trans before
  tree _ _ _ _ inserted before := (begun_insertTree inserted).trans before
  branch _ _ _ _ inserted before := (begun_insertBranch inserted).trans before
  note _ _ _ _ _ inserted before := (begun_insertNote inserted).trans before

end Store

namespace Loader

open Loading

/-- An event without a file name is refused at once. -/
theorem outcome_fileId_of_unnamed {event : Event} (unnamed : event.filename = []) (loader : Loader) :
    outcome (fileId event) loader =
      (.error (.missingFilename event.kindName (event.line?.getD 0)), loader) := by
  simp only [fileId, unnamed, List.isEmpty_nil, if_true, outcome_bind, outcome_throw]

/-- The file of a name that the loader has met is known. -/
theorem outcome_fileId_of_known {event : Event} {loader : Loader} {id : Id}
    (named : event.filename ≠ []) (known : loader.files.lookup event.filename = some id) :
    outcome (fileId event) loader = (.ok id, loader) := by
  have filled : event.filename.isEmpty = false := by simpa using named
  simp only [fileId, filled, Bool.false_eq_true, if_false, outcome_bind, outcome_get, known,
    outcome_pure]

/-- A new file name is stored, remembered and counted. -/
theorem outcome_fileId_of_new {event : Event} {loader : Loader} (named : event.filename ≠ [])
    (new : loader.files.lookup event.filename = none) :
    outcome (fileId event) loader =
      (.ok (loader.store.insertFile event.filename).1,
        { loader with
          store := (loader.store.insertFile event.filename).2
          files := (event.filename, (loader.store.insertFile event.filename).1) :: loader.files
          counts := { loader.counts with files := loader.counts.files + 1 } }) := by
  have filled : event.filename.isEmpty = false := by simpa using named
  simp only [fileId, filled, Bool.false_eq_true, if_false, outcome_bind, outcome_get, new,
    outcome_set, outcome_pure]

/-- An insertion that fails leaves the loader as it was. -/
theorem outcome_insert (insertion : Store → Except StoreFault (Id × Store)) (loader : Loader) :
    outcome (insert insertion) loader =
      match insertion loader.store with
      | .error cause => (.error (.storage cause), loader)
      | .ok (id, store) => (.ok id, { loader with store }) := by
  simp only [insert, outcome_bind, outcome_get]
  cases insertion loader.store with
  | error cause => simp only [outcome_throw]
  | ok entry => simp only [outcome_bind, outcome_set, outcome_pure]

/-- A tree is stored, and counts as a duplicate when its name was declared before. -/
theorem outcome_applyTree {location : Location} {finding : TreeFinding} {file id : Id}
    {loader : Loader} {store : Store}
    (inserted : loader.store.insertTree
      ⟨finding.name, finding.title, finding.variableName, file, location.line⟩ = .ok (id, store)) :
    outcome (applyTree location finding file) loader =
      (.ok (), { loader with
        store
        treesInFile := ((finding.name, file), id) :: loader.treesInFile
        latestTrees := (finding.name, id) :: loader.latestTrees
        counts := { loader.counts with
          trees := loader.counts.trees + 1
          duplicateTrees := loader.counts.duplicateTrees +
            if (loader.latestTrees.lookup finding.name).isSome then 1 else 0 } }) := by
  simp only [applyTree, outcome_bind, outcome_get, outcome_modify, outcome_insert, inserted]

theorem outcome_applyBranch_of_unknown {location : Location} {finding : BranchFinding} {file : Id}
    {loader : Loader} (unknown : loader.resolveTree finding.treeName file = none) :
    outcome (applyBranch location finding file) loader =
      (.error (.unknownTree location finding.treeName), loader) := by
  simp only [applyBranch, outcome_bind, outcome_get, unknown, outcome_throw]

/-- A branch is stored under the tree that its tree name resolves to. -/
theorem outcome_applyBranch {location : Location} {finding : BranchFinding} {file tree id : Id}
    {loader : Loader} {store : Store}
    (resolved : loader.resolveTree finding.treeName file = some tree)
    (inserted : loader.store.insertBranch ⟨tree, finding.name, finding.leafDefinition,
      finding.valueVariable, file, location.line⟩ = .ok (id, store)) :
    outcome (applyBranch location finding file) loader =
      (.ok (), { loader with
        store
        branches := (⟨tree, finding.name, finding.valueVariable⟩, id) :: loader.branches
        counts := { loader.counts with branches := loader.counts.branches + 1 } }) := by
  simp only [applyBranch, outcome_bind, outcome_get, resolved, outcome_insert, inserted,
    outcome_modify]

/-- A branch that the store does not take changes nothing. -/
theorem outcome_applyBranch_of_error {location : Location} {finding : BranchFinding} {file tree : Id}
    {loader : Loader} {cause : StoreFault}
    (resolved : loader.resolveTree finding.treeName file = some tree)
    (failed : loader.store.insertBranch ⟨tree, finding.name, finding.leafDefinition,
      finding.valueVariable, file, location.line⟩ = .error cause) :
    outcome (applyBranch location finding file) loader = (.error (.storage cause), loader) := by
  simp only [applyBranch, outcome_bind, outcome_get, resolved, outcome_insert, failed]

theorem outcome_applyNote_of_unknown {kind : NoteKind} {location : Location} {finding : NoteFinding}
    {file : Id} {loader : Loader}
    (unknown : loader.resolveBranch finding.treeName finding.branchName finding.valueVariable file =
      none) :
    outcome (applyNote kind location finding file) loader =
      (.error (.unknownBranch location finding.treeName finding.branchName), loader) := by
  simp only [applyNote, outcome_bind, outcome_get, unknown, outcome_throw]

/-- A note is stored under the branch that its names resolve to. -/
theorem outcome_applyNote {kind : NoteKind} {location : Location} {finding : NoteFinding}
    {file branch id : Id} {loader : Loader} {store : Store}
    (resolved : loader.resolveBranch finding.treeName finding.branchName finding.valueVariable file =
      some branch)
    (inserted : loader.store.insertNote kind ⟨finding.text, branch, file, location.line⟩ =
      .ok (id, store)) :
    outcome (applyNote kind location finding file) loader =
      (.ok (), { loader with store, counts := loader.counts.addNote kind }) := by
  simp only [applyNote, outcome_bind, outcome_get, resolved, outcome_insert, inserted,
    outcome_modify]

/-- A note that the store does not take changes nothing. -/
theorem outcome_applyNote_of_error {kind : NoteKind} {location : Location} {finding : NoteFinding}
    {file branch : Id} {loader : Loader} {cause : StoreFault}
    (resolved : loader.resolveBranch finding.treeName finding.branchName finding.valueVariable file =
      some branch)
    (failed : loader.store.insertNote kind ⟨finding.text, branch, file, location.line⟩ = .error cause) :
    outcome (applyNote kind location finding file) loader = (.error (.storage cause), loader) := by
  simp only [applyNote, outcome_bind, outcome_get, resolved, outcome_insert, failed]

/-- What is left to do with an event once its file is known. -/
def applyRest (file : Id) : Event → Loading Unit
  | .file _ => pure ()
  | .tree location finding => applyTree location finding file
  | .branch location finding => applyBranch location finding file
  | .note kind location finding => applyNote kind location finding file

/-- An event is applied by finding its file first. -/
theorem apply_eq (event : Event) : apply event = fileId event >>= fun file => applyRest file event := by
  cases event <;> rfl

section Refused

variable {Answer : Type}

/-- A step is traceless when it leaves the loader as it is whenever it fails. -/
def Traceless (step : Loading Answer) : Prop :=
  ∀ loader fault after, outcome step loader = (.error fault, after) → after = loader

theorem traceless_throw (fault : Fault) : Traceless (throw fault : Loading Answer) := by
  intro loader cause after failed
  cases failed
  rfl

theorem traceless_bind_get {next : Loader → Loading Answer}
    (rest : ∀ loader, Traceless (next loader)) : Traceless (get >>= next) :=
  fun loader => rest loader loader

/-- An insertion that fails leaves no trace, and what is noted down after it does not fail. -/
theorem traceless_insert {insertion : Store → Except StoreFault (Id × Store)}
    {note : Id → Loader → Loader} : Traceless (insert insertion >>= fun id => modify (note id)) := by
  intro loader fault after failed
  rw [outcome_bind, outcome_insert] at failed
  cases inserted : insertion loader.store <;> rw [inserted] at failed <;> cases failed
  rfl

theorem traceless_applyBranch (location : Location) (finding : BranchFinding) (file : Id) :
    Traceless (applyBranch location finding file) := by
  rw [applyBranch]
  refine traceless_bind_get ?_
  intro loader
  split
  · exact traceless_throw _
  · exact traceless_insert

theorem traceless_applyNote (kind : NoteKind) (location : Location) (finding : NoteFinding) (file : Id) :
    Traceless (applyNote kind location finding file) := by
  rw [applyNote]
  refine traceless_bind_get ?_
  intro loader
  split
  · exact traceless_throw _
  · exact traceless_insert

/-- A tree that is refused has been counted as a duplicate already, but it is not stored. -/
theorem store_of_applyTree_error {location : Location} {finding : TreeFinding} {file : Id}
    {loader after : Loader} {fault : Fault}
    (refused : outcome (applyTree location finding file) loader = (.error fault, after)) :
    after.store = loader.store := by
  rw [applyTree, outcome_bind_ok (outcome_get _), outcome_bind_ok (outcome_modify _ _)] at refused
  obtain rfl := traceless_insert _ _ _ refused
  rfl

/-- What comes after the file of an event stores nothing when it fails. -/
theorem store_of_applyRest_error {event : Event} {file : Id} {loader after : Loader} {fault : Fault}
    (refused : outcome (applyRest file event) loader = (.error fault, after)) :
    after.store = loader.store := by
  cases event with
  | file filename => cases refused
  | tree location finding => exact store_of_applyTree_error refused
  | branch location finding =>
      exact congrArg Loader.store (traceless_applyBranch location finding file _ _ _ refused)
  | note kind location finding =>
      exact congrArg Loader.store (traceless_applyNote kind location finding file _ _ _ refused)

/-- A refused event stores at most its file. -/
theorem store_of_refused {event : Event} {loader after : Loader} {fault : Fault}
    (refused : outcome (apply event) loader = (.error fault, after)) :
    after.store = loader.store ∨ after.store = (loader.store.insertFile event.filename).2 := by
  rw [apply_eq, outcome_bind] at refused
  by_cases unnamed : event.filename = []
  · rw [outcome_fileId_of_unnamed unnamed] at refused
    cases refused
    exact Or.inl rfl
  · cases known : loader.files.lookup event.filename with
    | some id =>
        rw [outcome_fileId_of_known unnamed known] at refused
        exact Or.inl (store_of_applyRest_error refused)
    | none =>
        rw [outcome_fileId_of_new unnamed known] at refused
        exact Or.inr (store_of_applyRest_error refused)

end Refused

section Maintained

variable {property : Store → Prop}

/-- Finding a file keeps what storing a file name keeps. -/
theorem maintains_fileId
    (kept : ∀ store filename, property store → property (store.insertFile filename).2)
    (event : Event) : Maintains property (fileId event) := by
  intro loader before
  by_cases unnamed : event.filename = []
  · rwa [outcome_fileId_of_unnamed unnamed]
  · cases known : loader.files.lookup event.filename with
    | some id => rwa [outcome_fileId_of_known unnamed known]
    | none =>
        rw [outcome_fileId_of_new unnamed known]
        exact kept loader.store event.filename before

/-- An insertion keeps what it keeps of the store. -/
theorem maintains_insert {insertion : Store → Except StoreFault (Id × Store)}
    (kept : ∀ store id after, insertion store = .ok (id, after) → property store → property after) :
    Maintains property (insert insertion) := by
  intro loader before
  rw [outcome_insert]
  split
  · exact before
  · next inserted => exact kept _ _ _ inserted before

variable (kept : Store.KeptByInsertions property)
include kept

theorem maintains_applyTree (location : Location) (finding : TreeFinding) (file : Id) :
    Maintains property (applyTree location finding file) := by
  rw [applyTree]
  refine maintains_bind maintains_get ?_
  intro loader
  refine maintains_bind (maintains_modify ?_) ?_
  · exact fun _ => rfl
  · intro _
    apply maintains_bind (maintains_insert fun store => kept.tree store _)
    intro _
    exact maintains_modify fun _ => rfl

theorem maintains_applyBranch (location : Location) (finding : BranchFinding) (file : Id) :
    Maintains property (applyBranch location finding file) := by
  rw [applyBranch]
  refine maintains_bind maintains_get ?_
  intro loader
  split
  · exact maintains_throw _
  · apply maintains_bind (maintains_insert fun store => kept.branch store _)
    intro _
    exact maintains_modify fun _ => rfl

theorem maintains_applyNote (kind : NoteKind) (location : Location) (finding : NoteFinding)
    (file : Id) : Maintains property (applyNote kind location finding file) := by
  rw [applyNote]
  refine maintains_bind maintains_get ?_
  intro loader
  split
  · exact maintains_throw _
  · apply maintains_bind (maintains_insert fun store => kept.note store kind _)
    intro _
    exact maintains_modify fun _ => rfl

theorem maintains_applyRest (file : Id) (event : Event) : Maintains property (applyRest file event) := by
  cases event with
  | file filename => exact maintains_pure ()
  | tree location finding => exact maintains_applyTree kept location finding file
  | branch location finding => exact maintains_applyBranch kept location finding file
  | note kind location finding => exact maintains_applyNote kept kind location finding file

/-- What insertions keep, an event keeps, whether it is applied or refused. -/
theorem maintains_apply (event : Event) : Maintains property (apply event) := by
  rw [apply_eq]
  exact maintains_bind (maintains_fileId kept.file event) fun file => maintains_applyRest kept file event

/-- What insertions keep, the items of a load keep up to the first failure. -/
theorem maintains_applyAll (items : List (Except Fault Event)) :
    Maintains property (applyAll items) := by
  induction items with
  | nil => exact maintains_pure ()
  | cons item items inductionHypothesis =>
      cases item with
      | error fault => exact maintains_throw fault
      | ok event =>
          exact maintains_bind (maintains_apply kept event) fun _ => inductionHypothesis

end Maintained

/-- No item of a load opens or closes a transaction, whether it is applied or refused. -/
theorem keepsTransaction_applyAll (items : List (Except Fault Event)) :
    KeepsTransaction (applyAll items) := by
  intro loader
  exact maintains_applyAll (Store.begun_keptByInsertions loader.store.begun) items loader rfl

end Loader

end BranchCatalog
