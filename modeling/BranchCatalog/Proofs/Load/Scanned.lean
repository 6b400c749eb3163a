import BranchCatalog.Proofs.Load.Independence
import BranchCatalog.Proofs.Scan.Emission

namespace BranchCatalog

/-- Holds when a branch with some names is unshadowed: no tree of its tree name comes after it. -/
def HasUnshadowedBranch (events : List Event) (treeName branchName valueVariable : Text) : Prop :=
  ∃ earlier location finding later, events = earlier ++ .branch location finding :: later ∧
    finding.treeName = treeName ∧ finding.name = branchName ∧
    finding.valueVariable = valueVariable ∧
    ∀ event ∈ later, event.declaresTree treeName = false

/-- Later events without trees and branches neither add nor shadow a branch. -/
theorem hasUnshadowedBranch_append_iff {events later : List Event}
    (last : ∀ event ∈ later, event.isTree = false ∧ event.isBranch = false)
    {treeName branchName valueVariable : Text} :
    HasUnshadowedBranch (events ++ later) treeName branchName valueVariable ↔
      HasUnshadowedBranch events treeName branchName valueVariable := by
  constructor
  · rintro ⟨before, location, finding, after, split, tree, name, filled, unshadowed⟩
    rcases split_of_append split with ⟨rest, rfl, rfl⟩ | ⟨rest, rfl, rfl⟩
    · refine ⟨before, location, finding, rest, rfl, tree, name, filled, ?_⟩
      intro event member
      exact unshadowed event (List.mem_append_left _ member)
    · have none := (last (.branch location finding) (by simp)).2
      contradiction
  · rintro ⟨before, location, finding, after, rfl, tree, name, filled, unshadowed⟩
    refine ⟨before, location, finding, after ++ later, by simp, tree, name, filled, ?_⟩
    intro event member
    rcases List.mem_append.mp member with inside | behind
    · exact unshadowed event inside
    · cases event with
      | tree => exact absurd (last _ behind).1 (by simp [Event.isTree])
      | file | branch | note => rfl

section OneFile

variable {events : List Event} {treeName filename : Text}

/-- In one file the target of a tree name is the latest tree of the name. -/
theorem treeTarget_of_one_file (recorded : ∀ event ∈ events, event.filename = filename)
    (treeName : Text) :
    treeTarget events treeName filename = latest? (fun _ => Event.declaresTree treeName) events := by
  have same : latest? (fun _ => Event.declaresTreeOf treeName filename) events =
      latest? (fun _ => Event.declaresTree treeName) events := by
    apply latest?_congr
    intro earlier event later split
    simp [Event.declaresTreeOf, recorded event (by simp [split])]
  rw [treeTarget, same, Option.or_self]

/-- Events that declare no tree of the name do not move its target. -/
theorem treeTarget_append_of_not {later : List Event}
    (unshadowed : ∀ event ∈ later, event.declaresTree treeName = false) (filename : Text) :
    treeTarget (events ++ later) treeName filename = treeTarget events treeName filename := by
  have inFile : ∀ event ∈ later, event.declaresTreeOf treeName filename = false := by
    intro event member
    rw [Event.declaresTreeOf, unshadowed event member, Bool.false_and]
  rw [treeTarget, treeTarget, latest?_append_of_not inFile, latest?_append_of_not unshadowed]

/-- In one file the names of a branch have a target exactly when a branch with them is unshadowed. -/
theorem isSome_branchTarget_iff_of_one_file (declared : DeclaredAfter [] events)
    (recorded : ∀ event ∈ events, event.filename = filename) (branchName valueVariable : Text) :
    (branchTarget events treeName branchName valueVariable filename).isSome = true ↔
      HasUnshadowedBranch events treeName branchName valueVariable := by
  constructor
  · intro found
    obtain ⟨position, targeted⟩ := Option.isSome_iff_exists.mp found
    obtain ⟨tree, earlier, event, later, resolved, split, rfl, chosen⟩ :=
      exists_of_branchTarget targeted
    cases event with
    | file | tree | note => contradiction
    | branch location finding =>
        rw [addsBranchTo, Bool.and_eq_true_iff, Bool.and_eq_true_iff] at chosen
        obtain ⟨⟨named, filled⟩, own⟩ := chosen
        have own := of_decide_eq_true own
        have inside := treeTarget_lt own
        obtain ⟨place, left, leftBefore, leftName⟩ := exists_tree_of_treeTarget own
        obtain ⟨_, right, rightAt, rightName⟩ := exists_tree_of_treeTarget resolved
        rw [split, List.getElem?_append_left inside, leftBefore] at rightAt
        cases rightAt
        refine ⟨earlier, location, finding, later, split, leftName.symm.trans rightName,
          of_decide_eq_true named, of_decide_eq_true filled, ?_⟩
        rw [treeTarget_of_one_file recorded, split] at resolved
        intro event member
        exact eq_false_of_latest?_append resolved inside event (List.mem_cons_of_mem _ member)
  · rintro ⟨earlier, location, finding, later, split, rfl, rfl, rfl, unshadowed⟩
    have place : location.filename = filename :=
      recorded (.branch location finding) (by simp [split])
    have known := declared earlier (.branch location finding) later split
    rw [Event.isDeclared_branch, List.nil_append, place] at known
    obtain ⟨tree, own⟩ := Option.isSome_iff_exists.mp (isSome_treeTarget_of_declared known)
    have resolved : treeTarget events finding.treeName filename = some tree := by
      rw [split, treeTarget_append_of_not _ filename, own]
      intro event member
      rcases List.mem_cons.mp member with rfl | after
      · rfl
      · exact unshadowed event after
    rw [branchTarget, resolved, Option.bind_some]
    cases found : latest? (addsBranchTo tree finding.name finding.valueVariable) events with
    | some position => rfl
    | none =>
        have refused := latest?_eq_none_iff.mp found earlier (.branch location finding) later split
        simp [addsBranchTo, place, own] at refused

end OneFile

namespace Scan

variable {filename content : Text} {events : List Event}

/-- No tree and no branch of a scan comes after a note. -/
theorem not_declared_after_note (scanned : scanSource filename content = .ok events)
    {earlier later : List Event} {kind : NoteKind} {location : Location} {finding : NoteFinding}
    (split : events = earlier ++ .note kind location finding :: later) :
    ∀ event ∈ later, event.isTree = false ∧ event.isBranch = false := by
  obtain ⟨declarations, notes, rfl, unnoted, last⟩ := notes_last scanned
  rcases split_of_append split with ⟨rest, rfl, -⟩ | ⟨rest, -, rfl⟩
  · have member : .note kind location finding ∈ earlier ++ .note kind location finding :: rest := by
      simp
    simpa [Event.isNote] using unnoted _ member kind
  · intro event member
    exact last event (by simp [member])

/-- In a scan the events before a note have a target for it exactly when all events have an unshadowed
branch with its names. -/
theorem hasTarget_note_iff (scanned : scanSource filename content = .ok events)
    {earlier later : List Event} {kind : NoteKind} {location : Location} {finding : NoteFinding}
    (split : events = earlier ++ .note kind location finding :: later) :
    (Event.note kind location finding).hasTarget earlier = true ↔
      HasUnshadowedBranch events finding.treeName finding.branchName finding.valueVariable := by
  have recorded : ∀ event ∈ events, event.filename = filename :=
    fun _ member => filename_of_mem_scanSource scanned member
  have place : location.filename = filename :=
    recorded (.note kind location finding) (by simp [split])
  have declared : DeclaredAfter [] earlier := by
    have whole := declaredAfter_scanSource scanned
    rw [split] at whole
    exact whole.prefix_of_append
  have last : ∀ event ∈ .note kind location finding :: later,
      event.isTree = false ∧ event.isBranch = false := by
    intro event member
    rcases List.mem_cons.mp member with rfl | behind
    · exact ⟨rfl, rfl⟩
    · exact not_declared_after_note scanned split event behind
  rw [Event.hasTarget, place, isSome_branchTarget_iff_of_one_file declared fun event member =>
    recorded event (by simp [split, member]), split, hasUnshadowedBranch_append_iff last]

/-- All events of a scan but its notes have a target. -/
theorem hasTarget_of_not_note (scanned : scanSource filename content = .ok events)
    {earlier later : List Event} {event : Event} (split : events = earlier ++ event :: later)
    (unnoted : ∀ kind, event.isNote kind = false) : event.hasTarget earlier = true := by
  cases event with
  | file | tree => rfl
  | branch location finding =>
      have declared := declaredAfter_scanSource scanned earlier _ later split
      rw [Event.isDeclared_branch, List.nil_append] at declared
      exact isSome_treeTarget_of_declared declared
  | note kind => simpa [Event.isNote] using unnoted kind

end Scan

namespace Store

open Scan

/-- What a scan emits can be loaded exactly when each note has an unshadowed branch with its names. A load
that fails refuses a note. -/
theorem load_scan_iff_unshadowed {filename content : Text} {events : List Event}
    (named : filename ≠ []) (scanned : scanSource filename content = .ok events) :
    ((Store.empty.load (events.map .ok)).1.isOk = true ↔
      ∀ kind location finding, .note kind location finding ∈ events →
        HasUnshadowedBranch events finding.treeName finding.branchName finding.valueVariable) ∧
    ∀ fault after, Store.empty.load (events.map .ok) = (.error fault, after) →
      ∃ kind location finding, .note kind location finding ∈ events ∧
        fault = .unknownBranch location finding.treeName finding.branchName := by
  have numbered : Store.empty.tables.files.Numbered := Table.Numbered.empty
  constructor
  · rw [isOk_load_iff rfl numbered]
    constructor
    · intro targeted kind location finding member
      obtain ⟨earlier, later, split⟩ := List.append_of_mem member
      exact (hasTarget_note_iff scanned split).mp (targeted earlier _ later split).2
    · intro unshadowed earlier event later split
      have member : event ∈ events := by simp [split]
      refine ⟨by rwa [filename_of_mem_scanSource scanned member], ?_⟩
      cases event with
      | note kind location finding =>
          exact (hasTarget_note_iff scanned split).mpr (unshadowed kind location finding member)
      | file | tree | branch => exact hasTarget_of_not_note scanned split fun _ => rfl
  · intro fault after failed
    cases faulty : firstFault? [] (events.map .ok) with
    | none =>
        rw [load_of_accepted rfl numbered faulty] at failed
        cases failed
    | some cause =>
        rw [load_of_fault rfl numbered faulty] at failed
        cases failed
        obtain ⟨earlier, event, later, split, refused⟩ := exists_of_firstFault?_map_ok faulty
        have member : event ∈ events := by simp [split]
        have filled : event.filename ≠ [] := by
          rwa [filename_of_mem_scanSource scanned member]
        rw [List.nil_append] at refused
        cases event with
        | note kind location finding =>
            refine ⟨kind, location, finding, member, ?_⟩
            simp only [Event.refusal?, if_neg filled] at refused
            split at refused
            · contradiction
            · exact (Option.some.inj refused).symm
        | file | tree | branch =>
            have targeted := hasTarget_of_not_note scanned split fun _ => rfl
            rw [Event.refusal?_eq_none_iff.mpr ⟨filled, targeted⟩] at refused
            contradiction

/-- A note is loaded under its branch although the file also uses a tree that it does not declare. -/
theorem load_scan_with_undeclared_tree :
    ∃ events, scanSource ['a'] ("t = new TTree(\"x\");\nt->Branch(\"b\", &v);\n" ++
        "u->Branch(\"c\", &w);\nv = 1; // note\n").toList = .ok events ∧
      (Store.empty.load (events.map .ok)).1.isOk = true ∧
      HasUnshadowedBranch events ['x'] ['b'] ['v'] := by
  have whole : (scanSource ['a'] ("t = new TTree(\"x\");\nt->Branch(\"b\", &v);\n" ++
      "u->Branch(\"c\", &w);\nv = 1; // note\n").toList).map (fun events =>
        ((Store.empty.load (events.map .ok)).1.isOk, events.contains
          (.note .comment ⟨['a'], 4⟩ ⟨['x'], ['b'], ['v'], "v = 1; // note".toList⟩))) =
      .ok (true, true) := by decide +kernel
  cases scanned : scanSource ['a'] ("t = new TTree(\"x\");\nt->Branch(\"b\", &v);\n" ++
      "u->Branch(\"c\", &w);\nv = 1; // note\n").toList with
  | error fault =>
      rw [scanned] at whole
      contradiction
  | ok events =>
      rw [scanned] at whole
      obtain ⟨loaded, noted⟩ := Prod.mk.inj (Except.ok.inj whole)
      have unshadowed := (load_scan_iff_unshadowed (by decide) scanned).1.mp loaded
      exact ⟨events, rfl, loaded, unshadowed _ _ _ (List.contains_iff_mem.mp noted)⟩

/-- A variable that holds no declared tree but is named like one adds a second tree of that name, and
then a note on a branch of the first one is refused. -/
theorem load_scan_with_shadowed_branch :
    ∃ events, scanSource "a.cc".toList ("a = new TTree(\"x\", \"t\");\na->Branch(\"b\", &v);\n" ++
        "x->Branch(\"c\", &w);\nv = 1; // note\n").toList = .ok events ∧
      Store.empty.load (events.map .ok) =
        (.error (.unknownBranch ⟨"a.cc".toList, 4⟩ ['x'] ['b']), Store.empty) := by
  have whole : (scanSource "a.cc".toList ("a = new TTree(\"x\", \"t\");\na->Branch(\"b\", &v);\n" ++
      "x->Branch(\"c\", &w);\nv = 1; // note\n").toList).map
        (fun events => Store.empty.load (events.map .ok)) =
      .ok (.error (.unknownBranch ⟨"a.cc".toList, 4⟩ ['x'] ['b']), Store.empty) := by decide +kernel
  cases scanned : scanSource "a.cc".toList ("a = new TTree(\"x\", \"t\");\na->Branch(\"b\", &v);\n" ++
      "x->Branch(\"c\", &w);\nv = 1; // note\n").toList with
  | error fault =>
      rw [scanned] at whole
      contradiction
  | ok events =>
      rw [scanned] at whole
      exact ⟨events, rfl, Except.ok.inj whole⟩

end Store

end BranchCatalog
