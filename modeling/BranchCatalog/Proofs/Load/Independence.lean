/-
This file shows that events whose trees are all declared among them mean the same after any history: no
event of the history is a target, and the targets only move by the length of the history.
-/

import BranchCatalog.Proofs.Load.Declared
import BranchCatalog.Proofs.Load.Resolution

namespace BranchCatalog

variable {history earlier events : List Event} {event : Event} {treeName filename : Text}

/-- A tree that is declared has a target in its file. -/
theorem isSome_treeTarget_of_declared
    (declared : events.any (Event.declaresTreeOf treeName filename) = true) :
    (treeTarget events treeName filename).isSome = true := by
  rw [treeTarget, Option.isSome_or, isSome_latest?, declared, Bool.true_or]

/-- A tree name that is declared in its file means nothing in the history. -/
theorem treeTarget_of_declared (history : List Event)
    (declared : earlier.any (Event.declaresTreeOf treeName filename) = true) :
    treeTarget (history ++ earlier) treeName filename =
      (treeTarget earlier treeName filename).map (history.length + ·) := by
  rw [← isSome_latest?] at declared
  obtain ⟨position, found⟩ := Option.isSome_iff_exists.mp declared
  rw [treeTarget, treeTarget, latest?_append, found]
  rfl

/-- A declared branch is added to a tree after the history exactly when it is without the history. -/
theorem addsBranchTo_of_declared (history : List Event) (declared : event.isDeclared earlier = true)
    (target : Nat) (branchName valueVariable : Text) :
    addsBranchTo (history.length + target) branchName valueVariable (history ++ earlier) event =
      addsBranchTo target branchName valueVariable earlier event := by
  cases event with
  | file | tree | note => rfl
  | branch location finding =>
      rw [Event.isDeclared_branch] at declared
      rw [addsBranchTo, addsBranchTo, treeTarget_of_declared history declared]
      congr 1
      rw [decide_eq_decide]
      cases treeTarget earlier finding.treeName location.filename with
      | none => simp
      | some position => simp

/-- No branch of the history is added to a tree after it. -/
theorem latest?_addsBranchTo_history (history : List Event) (target : Nat)
    (branchName valueVariable : Text) :
    latest? (addsBranchTo (history.length + target) branchName valueVariable) history = none := by
  rw [latest?_eq_none_iff]
  intro before event later split
  cases event with
  | file | tree | note => rfl
  | branch location finding =>
      rw [addsBranchTo, Bool.and_eq_false_iff]
      refine Or.inr (decide_eq_false ?_)
      intro own
      have inside := treeTarget_lt own
      rw [split, List.length_append] at inside
      omega

/-- The names of a branch whose tree is declared mean nothing in the history. -/
theorem branchTarget_of_declared (history : List Event) (whole : DeclaredAfter [] earlier)
    (declared : earlier.any (Event.declaresTreeOf treeName filename) = true)
    (branchName valueVariable : Text) :
    branchTarget (history ++ earlier) treeName branchName valueVariable filename =
      (branchTarget earlier treeName branchName valueVariable filename).map
        (history.length + ·) := by
  rw [branchTarget, branchTarget, treeTarget_of_declared history declared]
  cases treeTarget earlier treeName filename with
  | none => rfl
  | some target =>
      have inside : latest? (fun before => addsBranchTo (history.length + target) branchName
          valueVariable (history ++ before)) earlier =
          latest? (addsBranchTo target branchName valueVariable) earlier := by
        apply latest?_congr
        intro before event later split
        exact addsBranchTo_of_declared history (whole before event later split) _ _ _
      rw [Option.map_some, Option.bind_some, Option.bind_some, latest?_append, inside,
        latest?_addsBranchTo_history, Option.or_none]

/-- A declared event has a target after the history exactly when it has one without the history. -/
theorem Event.hasTarget_of_declared (history : List Event) (whole : DeclaredAfter [] earlier)
    (declared : event.isDeclared earlier = true) :
    event.hasTarget (history ++ earlier) = event.hasTarget earlier := by
  cases event with
  | file | tree => rfl
  | branch location finding =>
      rw [isDeclared_branch] at declared
      rw [hasTarget, hasTarget, treeTarget_of_declared history declared, Option.isSome_map]
  | note kind location finding =>
      rw [isDeclared_note] at declared
      rw [hasTarget, hasTarget, branchTarget_of_declared history whole declared, Option.isSome_map]

/-- No history makes a refused event accepted, or the other way round, when it is declared. -/
theorem Event.refusal?_of_declared (history : List Event) (whole : DeclaredAfter [] earlier)
    (declared : event.isDeclared earlier = true) :
    event.refusal? (history ++ earlier) = event.refusal? earlier := by
  have same := hasTarget_of_declared history whole declared
  unfold refusal?
  rw [same]

/-- Declared events have the same first fault after any history. -/
theorem firstFault?_of_declared (history : List Event) (whole : DeclaredAfter [] (earlier ++ events)) :
    firstFault? (history ++ earlier) (events.map .ok) = firstFault? earlier (events.map .ok) := by
  induction events generalizing earlier with
  | nil => rfl
  | cons event events inductionHypothesis =>
      have declared : event.isDeclared earlier = true := whole earlier event events rfl
      have rest : DeclaredAfter [] (earlier ++ [event] ++ events) := by
        rwa [List.append_assoc, List.singleton_append]
      simp only [List.map_cons, firstFault?,
        Event.refusal?_of_declared history whole.prefix_of_append declared, List.append_assoc,
        ← inductionHypothesis rest]

/-- The faults of items in sequence are those of the first and then those of the second. -/
theorem firstFault?_append (earlier events : List Event) (items : List (Except Fault Event)) :
    firstFault? earlier (events.map .ok ++ items) =
      (firstFault? earlier (events.map .ok)).or (firstFault? (earlier ++ events) items) := by
  induction events generalizing earlier with
  | nil => simp [firstFault?]
  | cons event events inductionHypothesis =>
      simp only [List.map_cons, List.cons_append, firstFault?]
      cases event.refusal? earlier with
      | some fault => rfl
      | none => simp only [inductionHypothesis, List.append_assoc, List.singleton_append]

end BranchCatalog
