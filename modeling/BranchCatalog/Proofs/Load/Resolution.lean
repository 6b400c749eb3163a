/-
This file proves that a load resolves every name by position: it succeeds exactly when each event has
a file name and a target among the events before it, and then its tables are the old ones with one row
for each event, under the ids that the positions give.
-/

import BranchCatalog.Proofs.Load.Atomicity
import BranchCatalog.Proofs.Load.Progress

namespace BranchCatalog

open Loading

/-- Events have no fault exactly when none of them is refused after those before it. -/
theorem firstFault?_map_ok_eq_none_iff {earlier events : List Event} :
    firstFault? earlier (events.map .ok) = none ↔ ∀ before event later,
      events = before ++ event :: later → event.refusal? (earlier ++ before) = none := by
  induction events generalizing earlier with
  | nil => simp [firstFault?]
  | cons head tail inductionHypothesis =>
      simp only [List.map_cons, firstFault?]
      cases refused : head.refusal? earlier with
      | some fault =>
          refine iff_of_false (by simp) fun accepted => ?_
          have first := accepted [] head tail rfl
          rw [List.append_nil, refused] at first
          contradiction
      | none =>
          simp only [inductionHypothesis, List.append_assoc, List.singleton_append]
          constructor
          · intro accepted before event later split
            cases before with
            | nil =>
                obtain ⟨rfl, rfl⟩ := List.cons.inj split
                rw [List.append_nil, refused]
            | cons first before =>
                obtain ⟨rfl, rfl⟩ := List.cons.inj split
                exact accepted before event later rfl
          · intro accepted before event later split
            exact accepted (head :: before) event later (by rw [split, List.cons_append])

/-- A fault of events is the refusal of one of them. -/
theorem exists_of_firstFault?_map_ok {earlier events : List Event} {fault : Fault}
    (faulty : firstFault? earlier (events.map .ok) = some fault) :
    ∃ before event later, events = before ++ event :: later ∧
      event.refusal? (earlier ++ before) = some fault := by
  induction events generalizing earlier with
  | nil => contradiction
  | cons head tail inductionHypothesis =>
      simp only [List.map_cons, firstFault?] at faulty
      cases refused : head.refusal? earlier with
      | some cause =>
          rw [refused] at faulty
          exact ⟨[], head, tail, rfl, by rw [List.append_nil, refused, ← faulty]⟩
      | none =>
          rw [refused] at faulty
          obtain ⟨before, event, later, rfl, found⟩ := inductionHypothesis faulty
          exact ⟨head :: before, event, later, rfl, by rw [List.append_cons, found]⟩

namespace Loader

variable {old : Tables} {earlier : List Event} {loader : Loader}

/-- Events without a fault are all applied, and the loader follows them. -/
theorem Follows.applyAll_of_accepted (follows : loader.Follows old earlier earlier)
    (numbered : old.files.Numbered) {events : List Event}
    (accepted : firstFault? earlier (events.map .ok) = none) :
    ∃ after, outcome (applyAll (events.map .ok)) loader = (.ok (), after) ∧
      after.Follows old (earlier ++ events) (earlier ++ events) := by
  induction events generalizing earlier loader with
  | nil => exact ⟨loader, rfl, by rwa [List.append_nil]⟩
  | cons event events inductionHypothesis =>
      simp only [List.map_cons, firstFault?] at accepted
      cases refused : event.refusal? earlier with
      | some fault => simp [refused] at accepted
      | none =>
          rw [refused] at accepted
          obtain ⟨reached, applied, followed⟩ := follows.apply_of_accepted numbered refused
          obtain ⟨after, ran, whole⟩ := inductionHypothesis followed accepted
          refine ⟨after, ?_, by rwa [List.append_cons]⟩
          rw [List.map_cons, applyAll, outcome_bind_ok applied, ran]

/-- Items with a fault fail with the first one. -/
theorem Follows.applyAll_of_fault (follows : loader.Follows old earlier earlier)
    (numbered : old.files.Numbered) {items : List (Except Fault Event)} {fault : Fault}
    (faulty : firstFault? earlier items = some fault) :
    ∃ after, outcome (applyAll items) loader = (.error fault, after) := by
  induction items generalizing earlier loader with
  | nil => contradiction
  | cons item items inductionHypothesis =>
      cases item with
      | error cause =>
          obtain rfl : cause = fault := Option.some.inj faulty
          exact ⟨loader, rfl⟩
      | ok event =>
          simp only [firstFault?] at faulty
          cases refused : event.refusal? earlier with
          | some cause =>
              rw [refused] at faulty
              have failed := follows.apply_of_refused numbered refused
              rw [Option.some.inj faulty] at failed
              refine ⟨(outcome (apply event) loader).2, ?_⟩
              rw [applyAll]
              exact outcome_bind_error (Prod.ext failed rfl)
          | none =>
              rw [refused] at faulty
              obtain ⟨reached, applied, followed⟩ := follows.apply_of_accepted numbered refused
              obtain ⟨after, ran⟩ := inductionHypothesis followed faulty
              refine ⟨after, ?_⟩
              rw [applyAll, outcome_bind_ok applied, ran]

end Loader

namespace Store

open Loader

variable {store : Store}

/-- Events without a fault are all stored. -/
theorem load_of_accepted (closed : store.begun = none) (numbered : store.tables.files.Numbered)
    {events : List Event} (accepted : firstFault? [] (events.map .ok) = none) :
    store.load (events.map .ok) =
      (.ok (LoadCounts.ofEvents events), ofTables (store.tables.extended events)) := by
  have begun : (ofStore store).Follows store.tables [] [] :=
    follows_start { store with begun := some store.tables }
  obtain ⟨loader, ran, follows⟩ := begun.applyAll_of_accepted numbered accepted
  rw [load_of_closed closed, ran]
  simp only [follows.tables, follows.counts, List.nil_append]
  rfl

/-- Items with a fault store nothing. -/
theorem load_of_fault (closed : store.begun = none) (numbered : store.tables.files.Numbered)
    {items : List (Except Fault Event)} {fault : Fault} (faulty : firstFault? [] items = some fault) :
    store.load items = (.error fault, store) := by
  have begun : (ofStore store).Follows store.tables [] [] :=
    follows_start { store with begun := some store.tables }
  obtain ⟨loader, ran⟩ := begun.applyAll_of_fault numbered faulty
  rw [load_of_closed closed, ran]

/-- A load of events succeeds exactly when it finds no fault in them. -/
theorem isOk_load_iff_firstFault? (closed : store.begun = none) (numbered : store.tables.files.Numbered)
    (events : List Event) :
    (store.load (events.map .ok)).1.isOk = true ↔ firstFault? [] (events.map .ok) = none := by
  cases faulty : firstFault? [] (events.map .ok) with
  | none =>
      rw [load_of_accepted closed numbered faulty]
      exact iff_of_true rfl rfl
  | some fault =>
      rw [load_of_fault closed numbered faulty]
      exact iff_of_false (by simp [Except.isOk, Except.toBool]) (by simp)

/-- A load of events succeeds exactly when each has a file name and a target. -/
theorem isOk_load_iff (closed : store.begun = none) (numbered : store.tables.files.Numbered)
    (events : List Event) :
    (store.load (events.map .ok)).1.isOk = true ↔
      ∀ earlier event later, events = earlier ++ event :: later →
        event.filename ≠ [] ∧ event.hasTarget earlier = true := by
  rw [isOk_load_iff_firstFault? closed numbered, firstFault?_map_ok_eq_none_iff]
  simp only [List.nil_append, Event.refusal?_eq_none_iff]

/-- A load outside a transaction succeeds exactly when every event has a file name and a target among
the events before it. It then adds to each table one row for each event that the table is for, in the
order of the events, and one file for each name that has none yet. A row refers to its target by the id
that the target's position gives, and this is the id of the row that the target was stored in. -/
theorem load_resolves_by_position (store : Store) (closed : store.begun = none)
    (numbered : store.tables.files.Numbered) (events : List Event) :
    ((store.load (events.map .ok)).1.isOk = true ↔
      ∀ earlier event later, events = earlier ++ event :: later →
        event.filename ≠ [] ∧ event.hasTarget earlier = true) ∧
    ((store.load (events.map .ok)).1.isOk = true →
      store.load (events.map .ok) =
        (.ok (LoadCounts.ofEvents events), ofTables (store.tables.extended events))) ∧
    ∀ earlier event later, events = earlier ++ event :: later →
      (∀ row, (store.tables.withFilesOf events).treeRow? event = some row →
        ⟨rowId store.tables.trees Event.isTree events earlier.length, row⟩ ∈
          (store.tables.extended events).trees.rows) ∧
      (∀ row, (store.tables.withFilesOf events).branchRow? earlier event = some row →
        ⟨rowId store.tables.branches Event.isBranch events earlier.length, row⟩ ∈
          (store.tables.extended events).branches.rows) := by
  refine ⟨?_, ?_, ?_⟩
  · exact isOk_load_iff closed numbered events
  · intro succeeded
    rw [isOk_load_iff_firstFault? closed numbered] at succeeded
    exact load_of_accepted closed numbered succeeded
  · intro earlier event later split
    constructor
    · intro row judged
      exact stored_rowId _ (fun _ => (store.tables.withFilesOf events).isSome_treeRow?) split judged
    · intro row judged
      exact stored_rowId _ (store.tables.withFilesOf events).isSome_branchRow? split judged

/-- A branch of a file without a tree of its own goes under the latest tree of any file, and a branch of
a file with one goes under that one; ids go on after those of the stored rows. -/
theorem load_resolves_by_position_over_three_files :
    let stored : Tables :=
      { Tables.empty with
        files := ⟨[⟨2, ['a']⟩], 3⟩
        trees := ⟨[⟨5, ⟨['t'], [], ['p'], some 2, 7⟩⟩], 5⟩ }
    let events : List Event :=
      [.tree ⟨['a'], 1⟩ ⟨['t'], [], ['p']⟩, .tree ⟨['b'], 1⟩ ⟨['t'], [], ['q']⟩,
        .branch ⟨['a'], 2⟩ ⟨['t'], ['x'], [], ['v']⟩, .branch ⟨['c'], 2⟩ ⟨['t'], ['x'], [], ['v']⟩,
        .note .comment ⟨['c'], 3⟩ ⟨['t'], ['x'], ['v'], ['v', '/', '/']⟩]
    (ofTables stored).load (events.map .ok) =
        (.ok ⟨3, 2, 2, 1, 0, 1⟩, ofTables (stored.extended events)) ∧
      (stored.extended events).files.rows = [⟨2, ['a']⟩, ⟨4, ['b']⟩, ⟨5, ['c']⟩] ∧
      (stored.extended events).branches.rows.map (fun branch => branch.row.tree) =
        [some 6, some 7] ∧
      (stored.extended events).comments.rows = [⟨1, ⟨['v', '/', '/'], some 2, some 5, 3⟩⟩] := by
  intro stored events
  have numbered : stored.files.Numbered := ⟨List.pairwise_singleton _ _, by decide⟩
  have succeeded : ((ofTables stored).load (events.map .ok)).1.isOk = true := by decide +kernel
  have loaded := (load_resolves_by_position (ofTables stored) rfl numbered events).2.1 succeeded
  exact ⟨loaded, by decide +kernel, by decide +kernel, by decide +kernel⟩

end Store

end BranchCatalog
