/-
This file proves that sources can be scanned and loaded together or apart: no declaration in one source
captures, steals or loses a branch or a note of another one.
-/

import BranchCatalog.Proofs.Load.Succession
import BranchCatalog.Proofs.Report.Growth
import BranchCatalog.Proofs.Scan.Emission
import BranchCatalog.Proofs.Scan.Sequence

namespace BranchCatalog

/-- Loads all that a scan of the sources gives into an empty store. -/
def catalogued (disk : Disk) (registry : Registry) (sources : List Source) :
    Except Fault LoadCounts × Store :=
  Store.empty.load ((EventStream.start registry sources).takeAll disk)

/-- The first fault of a scan and of the load of its events. -/
def faultOf? (scanned : List Event × Option Fault) : Option Fault :=
  (firstFault? [] (scanned.1.map .ok)).or scanned.2

section Scanned

variable {disk : Disk} {registry : Registry} {sources : List Source}

/-- The first fault of scanned items is the fault that ended the scan. -/
theorem firstFault?_itemsOf (scanned : List Event × Option Fault) :
    firstFault? [] (itemsOf scanned) = faultOf? scanned := by
  rw [itemsOf, firstFault?_append, faultOf?]
  cases scanned.2 <;> rfl

/-- A scan with a fault leaves an empty catalog and tells of the fault. -/
theorem catalogued_of_fault {fault : Fault}
    (faulty : faultOf? (scanAll disk registry sources) = some fault) :
    catalogued disk registry sources = (.error fault, Store.empty) := by
  rw [catalogued, EventStream.takeAll_start]
  apply Store.load_of_fault rfl Table.Numbered.empty
  rw [firstFault?_itemsOf, faulty]

/-- A scan without a fault gives a catalog of all its events. -/
theorem catalogued_of_accepted (accepted : faultOf? (scanAll disk registry sources) = none) :
    catalogued disk registry sources =
      (.ok (LoadCounts.ofEvents (scanAll disk registry sources).1),
        Store.ofTables (Tables.empty.extended (scanAll disk registry sources).1)) := by
  obtain ⟨stored, scanned⟩ := Option.or_eq_none_iff.mp accepted
  have items : itemsOf (scanAll disk registry sources) =
      (scanAll disk registry sources).1.map .ok := by
    rw [itemsOf, scanned, Option.toList_none, List.map_nil, List.append_nil]
  rw [catalogued, EventStream.takeAll_start, items]
  exact Store.load_of_accepted rfl Table.Numbered.empty stored

/-- The scans of all sources declare the trees that they refer to. -/
theorem declaredAfter_scanAll (disk : Disk) (extensions : List Text) (sources : List Source) :
    DeclaredAfter [] (scanAll disk [treeScanner extensions] sources).1 := by
  induction sources with
  | nil => exact DeclaredAfter.nil []
  | cons source sources inductionHypothesis =>
      rw [scanAll]
      rcases scanned : scanOne disk [treeScanner extensions] source with _ | fault | events
      · exact inductionHypothesis
      · exact DeclaredAfter.nil []
      · obtain ⟨-, content, -, outcome⟩ := exists_of_scanOne scanned
        have rest := inductionHypothesis.prepend events
        rw [List.append_nil] at rest
        exact (Scan.declaredAfter_scanSource outcome).append rest

end Scanned

/-- Sources in sequence have the faults of the first ones and then those of the second ones. -/
theorem faultOf?_scanAll_append (disk : Disk) (extensions : List Text) (first second : List Source) :
    faultOf? (scanAll disk [treeScanner extensions] (first ++ second)) =
      (faultOf? (scanAll disk [treeScanner extensions] first)).or
        (faultOf? (scanAll disk [treeScanner extensions] second)) := by
  have declared := declaredAfter_scanAll disk extensions second
  rw [scanAll_append]
  rcases scanAll disk [treeScanner extensions] first with ⟨events, _ | fault⟩
  · have moved : firstFault? (events ++ [])
        ((scanAll disk [treeScanner extensions] second).1.map .ok) =
          firstFault? [] ((scanAll disk [treeScanner extensions] second).1.map .ok) :=
      firstFault?_of_declared events declared
    rw [List.append_nil] at moved
    simp only [faultOf?, List.map_append, firstFault?_append, List.nil_append, moved,
      Option.or_none, Option.or_assoc]
  · simp only [faultOf?, Option.or_assoc, Option.some_or]

/-- Sources without a fault give their events one after another. -/
theorem scanAll_append_of_accepted {disk : Disk} {registry : Registry} {first : List Source}
    (accepted : faultOf? (scanAll disk registry first) = none) (second : List Source) :
    (scanAll disk registry (first ++ second)).1 =
      (scanAll disk registry first).1 ++ (scanAll disk registry second).1 := by
  obtain ⟨-, scanned⟩ := Option.or_eq_none_iff.mp accepted
  rw [scanAll_append]
  rcases outcome : scanAll disk registry first with ⟨events, _ | fault⟩
  · rfl
  · simp [outcome] at scanned

/-- The counts of events in sequence add up, but for the files and the duplicate trees. -/
theorem LoadCounts.ofEvents_append (first second : List Event) :
    (ofEvents (first ++ second)).trees = (ofEvents first).trees + (ofEvents second).trees ∧
    (ofEvents (first ++ second)).branches = (ofEvents first).branches + (ofEvents second).branches ∧
    (ofEvents (first ++ second)).comments = (ofEvents first).comments + (ofEvents second).comments ∧
    (ofEvents (first ++ second)).assignments =
      (ofEvents first).assignments + (ofEvents second).assignments :=
  ⟨List.countP_append, List.countP_append, List.countP_append, List.countP_append⟩

/-- The report of events in sequence is that of the first and then that of the second. -/
theorem reportRows_extended_append {first second : List Event} (declared : DeclaredAfter [] second)
    (before : firstFault? [] (first.map .ok) = none)
    (after : firstFault? [] (second.map .ok) = none) :
    (Tables.empty.extended (first ++ second)).reportRows = (do
      let rows ← (Tables.empty.extended first).reportRows
      let more ← (Tables.empty.extended second).reportRows
      return rows ++ more) := by
  rw [Tables.extended_append _ _ declared]
  exact Tables.reportRows_extended (Tables.sound_empty.extended before) after

/-- Two lists of sources can be scanned and loaded together exactly when both can be alone. Then the
report of both is that of the first and then that of the second, and the counts of trees, branches,
comments and assignments add up. Otherwise the fault is that of the first, if it has one, or else that
of the second. -/
theorem catalogued_append (disk : Disk) (extensions : List Text) (first second : List Source) :
    let loaded := catalogued disk [treeScanner extensions]
    ((loaded (first ++ second)).1.isOk = true ↔
      (loaded first).1.isOk = true ∧ (loaded second).1.isOk = true) ∧
    (∀ fault, (loaded first).1 = .error fault → (loaded (first ++ second)).1 = .error fault) ∧
    (∀ counts fault, (loaded first).1 = .ok counts → (loaded second).1 = .error fault →
      (loaded (first ++ second)).1 = .error fault) ∧
    ∀ counts, (loaded (first ++ second)).1 = .ok counts →
      ∃ left right, (loaded first).1 = .ok left ∧ (loaded second).1 = .ok right ∧
        counts.trees = left.trees + right.trees ∧
        counts.branches = left.branches + right.branches ∧
        counts.comments = left.comments + right.comments ∧
        counts.assignments = left.assignments + right.assignments ∧
        (loaded (first ++ second)).2.tables.reportRows = (do
          let rows ← (loaded first).2.tables.reportRows
          let more ← (loaded second).2.tables.reportRows
          return rows ++ more) := by
  intro loaded
  have faults := faultOf?_scanAll_append disk extensions first second
  cases before : faultOf? (scanAll disk [treeScanner extensions] first) with
  | some fault =>
      rw [before, Option.some_or] at faults
      have alone : loaded first = (.error fault, Store.empty) := catalogued_of_fault before
      have whole : loaded (first ++ second) = (.error fault, Store.empty) :=
        catalogued_of_fault faults
      simp [alone, whole, Except.isOk, Except.toBool]
  | none =>
      have left : loaded first = _ := catalogued_of_accepted before
      cases after : faultOf? (scanAll disk [treeScanner extensions] second) with
      | some fault =>
          rw [before, after, Option.none_or] at faults
          have right : loaded second = (.error fault, Store.empty) := catalogued_of_fault after
          have whole : loaded (first ++ second) = (.error fault, Store.empty) :=
            catalogued_of_fault faults
          simp [left, right, whole, Except.isOk, Except.toBool]
      | none =>
          rw [before, after, Option.none_or] at faults
          have right : loaded second = _ := catalogued_of_accepted after
          have whole : loaded (first ++ second) = _ := catalogued_of_accepted faults
          rw [scanAll_append_of_accepted before second] at whole
          refine ⟨?_, ?_, ?_, ?_⟩
          · simp [left, right, whole, Except.isOk, Except.toBool]
          · simp [left]
          · simp [right]
          · intro counts counted
            simp only [whole, Except.ok.injEq] at counted
            obtain ⟨trees, branches, comments, assignments⟩ := LoadCounts.ofEvents_append
              (scanAll disk [treeScanner extensions] first).1
              (scanAll disk [treeScanner extensions] second).1
            rw [counted] at trees branches comments assignments
            refine ⟨_, _, congrArg Prod.fst left, congrArg Prod.fst right, trees, branches, comments,
              assignments, ?_⟩
            simp only [left, right, whole]
            exact reportRows_extended_append (declaredAfter_scanAll disk extensions second)
              (Option.or_eq_none_iff.mp before).1 (Option.or_eq_none_iff.mp after).1

end BranchCatalog
