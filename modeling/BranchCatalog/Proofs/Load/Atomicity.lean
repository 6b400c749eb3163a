import BranchCatalog.Proofs.Load.Outcome

namespace BranchCatalog

open Loading

namespace Loader

/-- The loader with which a load begins, after its transaction has been opened. -/
def ofStore (store : Store) : Loader :=
  start { store with begun := some store.tables }

/-- The fault of an item is the one that ended its scan, or the one that its event is refused with. -/
def faultOf? (loader : Loader) : Except Fault Event → Option Fault
  | .error fault => some fault
  | .ok event =>
    match (outcome (apply event) loader).1 with
    | .error fault => some fault
    | .ok () => none

/-- Events are applied one after another, each to the loader that the one before it leaves. -/
inductive Applies : List Event → Loader → Loader → Prop where
  | nil (loader : Loader) : Applies [] loader loader
  | cons {event : Event} {events : List Event} {loader between after : Loader}
      (first : outcome (apply event) loader = (.ok (), between)) (rest : Applies events between after) :
      Applies (event :: events) loader after

variable {events : List Event} {item : Except Fault Event} {loader after : Loader} {fault : Fault}

/-- The items behind applied events meet the loader that these leave. -/
theorem Applies.outcome_applyAll (applied : Applies events loader after) (later : List (Except Fault Event)) :
    outcome (applyAll (events.map Except.ok ++ later)) loader = outcome (applyAll later) after := by
  induction applied with
  | nil => rfl
  | cons first rest inductionHypothesis =>
      rw [List.map_cons, List.cons_append, applyAll, outcome_bind_ok first, inductionHypothesis]

/-- Once a fault is met, the items after it are not looked at. -/
theorem exists_outcome_of_faulty (faulty : loader.faultOf? item = some fault) (later : List (Except Fault Event)) :
    ∃ reached, outcome (applyAll (item :: later)) loader = (.error fault, reached) := by
  cases item with
  | error cause =>
      obtain rfl : cause = fault := Option.some.inj faulty
      exact ⟨loader, rfl⟩
  | ok event =>
      rw [faultOf?] at faulty
      cases answered : outcome (apply event) loader with
      | mk answer reached =>
          rw [answered] at faulty
          cases answer with
          | ok => cases faulty
          | error cause =>
              obtain rfl : cause = fault := Option.some.inj faulty
              exact ⟨reached, by rw [applyAll, outcome_bind_error answered]⟩

/-- Either all items are events that are applied, or there is a first one with a fault. -/
theorem applies_or_faulty (items : List (Except Fault Event)) (loader : Loader) :
    (∃ events after, items = events.map Except.ok ∧ Applies events loader after) ∨
      ∃ earlier item later reached fault, items = earlier.map Except.ok ++ item :: later ∧
        Applies earlier loader reached ∧ reached.faultOf? item = some fault := by
  induction items generalizing loader with
  | nil => exact Or.inl ⟨[], loader, rfl, .nil loader⟩
  | cons item items inductionHypothesis =>
      cases item with
      | error cause => exact Or.inr ⟨[], .error cause, items, loader, cause, rfl, .nil loader, rfl⟩
      | ok event =>
          cases answered : outcome (apply event) loader with
          | mk answer between =>
              cases answer with
              | error cause =>
                  exact Or.inr ⟨[], .ok event, items, loader, cause, rfl, .nil loader, by rw [faultOf?, answered]⟩
              | ok =>
                  rcases inductionHypothesis between with
                    ⟨events, after, rfl, applied⟩ | ⟨earlier, item, later, reached, fault, rfl, applied, faulty⟩
                  · exact Or.inl ⟨event :: events, after, rfl, .cons answered applied⟩
                  · exact Or.inr ⟨event :: earlier, item, later, reached, fault, rfl, .cons answered applied, faulty⟩

end Loader

namespace Store

open Loader

/-- With a transaction open a load looks at no item. -/
theorem load_of_begun {store : Store} (opened : store.begun ≠ none)
    (items : List (Except Fault Event)) :
    store.load items = (.error (.storage .transactionOpen), store) := by
  obtain ⟨tables, begun⟩ := Option.ne_none_iff_exists'.mp opened
  simp only [load, begin, begun]

/-- Without an open transaction a load keeps what its items wrote, or nothing at all. -/
theorem load_of_closed {store : Store} (closed : store.begun = none)
    (items : List (Except Fault Event)) :
    store.load items =
      match outcome (applyAll items) (ofStore store) with
      | (.ok (), loader) => (.ok loader.counts, ofTables loader.store.tables)
      | (.error fault, _) => (.error fault, store) := by
  have kept := keepsTransaction_applyAll items (ofStore store)
  have begun : store.begin = .ok (ofStore store).store := by simp only [begin, closed]; rfl
  have unchanged : (⟨store.tables, none⟩ : Store) = store := by rw [← closed]
  cases answered : outcome (applyAll items) (ofStore store) with
  | mk answer loader =>
      rw [answered] at kept
      have opened : loader.store.begun = some store.tables := kept
      have ran : (applyAll items).run.run (start (ofStore store).store) = (answer, loader) := answered
      cases answer with
      | error fault => simp only [load, begun, ran, rollBack, opened, unchanged]
      | ok => simp only [load, begun, ran, commit, opened, ofTables]

/-- Whatever a load fails with, and in whichever transaction, the store stays as it was. -/
theorem eq_of_load_error {store after : Store} {items : List (Except Fault Event)} {fault : Fault}
    (failed : store.load items = (.error fault, after)) : after = store := by
  by_cases closed : store.begun = none
  · rw [load_of_closed closed] at failed
    split at failed
    · cases failed
    · exact (Prod.mk.inj failed).2.symm
  · rw [load_of_begun closed] at failed
    exact (Prod.mk.inj failed).2.symm

/-- A load that succeeds leaves no transaction open. -/
theorem closed_of_load_ok {store after : Store} {items : List (Except Fault Event)}
    {counts : LoadCounts} (succeeded : store.load items = (.ok counts, after)) :
    after.begun = none := by
  by_cases closed : store.begun = none
  · rw [load_of_closed closed] at succeeded
    split at succeeded
    · rw [← (Prod.mk.inj succeeded).2, ofTables]
    · cases succeeded
  · rw [load_of_begun closed] at succeeded
    cases succeeded

section Closed

variable {store : Store} {events : List Event} {loader : Loader}

/-- A load of events that are applied one after another keeps what they wrote. -/
theorem load_of_applies (closed : store.begun = none) (applied : Applies events (ofStore store) loader) :
    store.load (events.map Except.ok) = (.ok loader.counts, ofTables loader.store.tables) := by
  have ran := applied.outcome_applyAll []
  rw [List.append_nil, applyAll, outcome_pure] at ran
  rw [load_of_closed closed, ran]

/-- A load fails with the first fault that it meets, whatever comes after it. -/
theorem load_of_faulty {item : Except Fault Event} {fault : Fault} (closed : store.begun = none)
    (applied : Applies events (ofStore store) loader) (faulty : loader.faultOf? item = some fault)
    (later : List (Except Fault Event)) :
    store.load (events.map Except.ok ++ item :: later) = (.error fault, store) := by
  obtain ⟨reached, failed⟩ := exists_outcome_of_faulty faulty later
  rw [load_of_closed closed, applied.outcome_applyAll, failed]

end Closed

/-- A load that fails changes nothing. With a transaction open it fails at once and looks at no item. Otherwise it
succeeds exactly when all its items are events that are applied one after another, and it fails exactly with the
first fault in the order of its items, whatever comes after it. A load that succeeds leaves no transaction to roll
back. -/
theorem load_all_or_nothing (store : Store) (items : List (Except Fault Event)) :
    (∀ fault after, store.load items = (.error fault, after) → after = store) ∧
    (store.begun ≠ none →
      ∀ others, store.load others = (.error (.storage .transactionOpen), store)) ∧
    (store.begun = none →
      (∀ counts after, store.load items = (.ok counts, after) ↔
        ∃ events loader, items = events.map Except.ok ∧ Applies events (ofStore store) loader ∧
          counts = loader.counts ∧ after = ofTables loader.store.tables) ∧
      ∀ fault after, store.load items = (.error fault, after) ↔
        after = store ∧ ∃ earlier item later reached, items = earlier.map Except.ok ++ item :: later ∧
          Applies earlier (ofStore store) reached ∧ reached.faultOf? item = some fault) ∧
    (∀ counts after, store.load items = (.ok counts, after) →
      after.begun = none ∧ after.rollBack = .error .nothingToRollBack) := by
  refine ⟨fun fault after failed => eq_of_load_error failed, fun opened => load_of_begun opened,
    fun closed => ⟨fun counts after => ⟨fun succeeded => ?_, ?_⟩, fun fault after => ⟨fun failed => ?_, ?_⟩⟩,
    fun counts after succeeded => ?_⟩
  · rcases applies_or_faulty items (ofStore store) with
      ⟨events, loader, rfl, applied⟩ | ⟨earlier, item, later, reached, fault, rfl, applied, faulty⟩
    · rw [load_of_applies closed applied] at succeeded
      obtain ⟨isCounts, isAfter⟩ := Prod.mk.inj succeeded
      exact ⟨events, loader, rfl, applied, (Except.ok.inj isCounts).symm, isAfter.symm⟩
    · rw [load_of_faulty closed applied faulty] at succeeded
      cases succeeded
  · rintro ⟨events, loader, rfl, applied, rfl, rfl⟩
    exact load_of_applies closed applied
  · rcases applies_or_faulty items (ofStore store) with
      ⟨events, loader, rfl, applied⟩ | ⟨earlier, item, later, reached, cause, rfl, applied, faulty⟩
    · rw [load_of_applies closed applied] at failed
      cases failed
    · rw [load_of_faulty closed applied faulty] at failed
      obtain ⟨isFault, isAfter⟩ := Prod.mk.inj failed
      obtain rfl := Except.error.inj isFault
      exact ⟨isAfter.symm, earlier, item, later, reached, rfl, applied, faulty⟩
  · rintro ⟨rfl, earlier, item, later, reached, rfl, applied, faulty⟩
    exact load_of_faulty closed applied faulty later
  · have closed := closed_of_load_ok succeeded
    exact ⟨closed, by simp only [rollBack, closed]⟩

/-- On a store that holds a file, a load of a tree and of a note to an unknown branch fails with the note, whatever
comes after it, and a load of the tree alone is kept. -/
theorem load_all_or_nothing_of_unknown_branch :
    let store : Store := (empty.insertFile "a.cc".toList).2
    let tree : Event := .tree ⟨"b.cc".toList, 1⟩ ⟨"t".toList, "".toList, "t".toList⟩
    let location : Location := ⟨"b.cc".toList, 2⟩
    let note : Event := .note .comment location ⟨"t".toList, "b".toList, "v".toList, "v // c".toList⟩
    store.tables ≠ .empty ∧ store.begun = none ∧
      (∀ later : List (Except Fault Event), store.load (.ok tree :: .ok note :: later) =
        (.error (.unknownBranch location "t".toList "b".toList), store)) ∧
      ∃ after, store.load [.ok tree] = (.ok ⟨1, 1, 0, 0, 0, 0⟩, after) ∧ after.begun = none ∧
        after.tables.trees.rows.length = 1 := by
  intro store tree location note
  have closed : store.begun = none := rfl
  have applied : Applies [tree] (ofStore store) (outcome (apply tree) (ofStore store)).2 :=
    .cons (Prod.ext (by decide) rfl) (.nil _)
  refine ⟨by decide, closed, fun later => ?_, ?_⟩
  · exact (((load_all_or_nothing store (.ok tree :: .ok note :: later)).2.2.1 closed).2 _ _).mpr
      ⟨rfl, [tree], .ok note, later, _, rfl, applied, by decide⟩
  · have succeeded := (((load_all_or_nothing store [.ok tree]).2.2.1 closed).1 _ _).mpr
      ⟨[tree], _, rfl, applied, rfl, rfl⟩
    exact ⟨_, succeeded, ((load_all_or_nothing store [.ok tree]).2.2.2 _ _ succeeded).1, by decide⟩

end Store

end BranchCatalog
