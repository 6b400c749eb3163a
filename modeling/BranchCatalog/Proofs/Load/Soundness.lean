import BranchCatalog.Proofs.Load.Resolution
import BranchCatalog.Proofs.Store.Integrity

namespace BranchCatalog

/-- A row of an extended table is an old one, or that of an event. -/
theorem mem_rows_append_along {Row : Type} {table : Table Row}
    {judge : List Event → Event → Option Row} {events : List Event} {stored : Stored Row}
    (member : stored ∈ (table.append (along judge events)).rows) :
    stored ∈ table.rows ∨ ∃ earlier event later, events = earlier ++ event :: later ∧
      judge earlier event = some stored.row := by
  rcases Table.mem_append_rows.mp member with old | ⟨index, found, -⟩
  · exact Or.inl old
  · exact Or.inr (mem_along.mp (List.mem_of_getElem? found))

namespace Tables

variable {tables : Tables} {events : List Event}

/-- Events add their notes of each kind behind the old ones. -/
theorem notes_extended (tables : Tables) (events : List Event) (kind : NoteKind) :
    (tables.extended events).notes kind =
      (tables.notes kind).append (along ((tables.withFilesOf events).noteRow? kind) events) := by
  cases kind <;> rfl

theorem resolves_fileId?_withFilesOf (tables : Tables) {event : Event} (member : event ∈ events) :
    (tables.withFilesOf events).files.resolves
      ((tables.withFilesOf events).fileId? event.filename) = true := by
  obtain ⟨id, found⟩ := Option.isSome_iff_exists.mp
    (isSome_fileId?_withFilesOf tables (List.mem_map_of_mem member))
  rw [found]
  exact contains_of_fileId? found

/-- A tree target resolves to the row of its tree. -/
theorem resolves_treeTarget (tables : Tables) {earlier later : List Event} {treeName filename : Text}
    (targeted : (treeTarget earlier treeName filename).isSome = true) :
    (tables.recording (earlier ++ later)).trees.resolves
      ((treeTarget earlier treeName filename).map (rowId tables.trees Event.isTree earlier)) =
      true := by
  obtain ⟨target, found⟩ := Option.isSome_iff_exists.mp targeted
  obtain ⟨location, finding, present, -⟩ := exists_tree_of_treeTarget found
  have inside := treeTarget_lt found
  rw [found, Option.map_some, ← rowId_append tables.trees Event.isTree inside later]
  exact contains_rowId tables.trees (fun _ => tables.isSome_treeRow?)
    (by rw [List.getElem?_append_left inside, present]) rfl

/-- A branch target resolves to the row of its branch. -/
theorem resolves_branchTarget (tables : Tables) {earlier later : List Event}
    {treeName branchName valueVariable filename : Text}
    (targeted : (branchTarget earlier treeName branchName valueVariable filename).isSome = true) :
    (tables.recording (earlier ++ later)).branches.resolves
      ((branchTarget earlier treeName branchName valueVariable filename).map
        (rowId tables.branches Event.isBranch earlier)) = true := by
  obtain ⟨target, found⟩ := Option.isSome_iff_exists.mp targeted
  obtain ⟨event, present, chosen⟩ := exists_branch_of_branchTarget found
  have inside : target < earlier.length := (List.getElem?_eq_some_iff.mp present).1
  rw [found, Option.map_some, ← rowId_append tables.branches Event.isBranch inside later]
  exact contains_rowId tables.branches tables.isSome_branchRow?
    (by rw [List.getElem?_append_left inside, present]) chosen

theorem Numbered.extended (numbered : tables.Numbered) (events : List Event) :
    (tables.extended events).Numbered where
  files := numbered.files.append _
  trees := numbered.trees.append _
  branches := numbered.branches.append _
  notes kind := by
    rw [notes_extended]
    exact (numbered.notes kind).append _

/-- Events without a fault keep tables sound. -/
theorem Sound.extended (sound : tables.Sound)
    (accepted : firstFault? [] (events.map .ok) = none) : (tables.extended events).Sound := by
  have targeted {earlier later : List Event} {event : Event}
      (split : events = earlier ++ event :: later) : event.hasTarget earlier = true := by
    have kept := firstFault?_map_ok_eq_none_iff.mp accepted earlier event later split
    exact (Event.refusal?_eq_none_iff.mp kept).2
  have file {earlier later : List Event} {event : Event}
      (split : events = earlier ++ event :: later) :=
    resolves_fileId?_withFilesOf tables (show event ∈ events by simp [split])
  constructor
  · exact sound.toNumbered.extended events
  · intro stored member
    rcases mem_rows_append_along member with old | ⟨earlier, event, later, split, judged⟩
    · exact Table.resolves_append (sound.treesResolve stored old) _
    · cases event with
      | file | branch | note => contradiction
      | tree location finding =>
          rw [← Option.some.inj judged]
          exact file split
  · intro stored member
    rcases mem_rows_append_along member with old | ⟨earlier, event, later, split, judged⟩
    · have before := sound.branchesResolve stored old
      exact ⟨Table.resolves_append before.1 _, Table.resolves_append before.2 _⟩
    · cases event with
      | file | tree | note => contradiction
      | branch location finding =>
          rw [← Option.some.inj judged]
          refine ⟨?_, file split⟩
          rw [split]
          exact resolves_treeTarget _ (targeted split)
  · intro kind stored member
    rw [notes_extended] at member
    rcases mem_rows_append_along member with old | ⟨earlier, event, later, split, judged⟩
    · have before := sound.notesResolve kind stored old
      exact ⟨Table.resolves_append before.1 _, Table.resolves_append before.2 _⟩
    · cases event with
      | file | tree | branch => contradiction
      | note found location finding =>
          rw [noteRow?] at judged
          split at judged
          · rw [← Option.some.inj judged]
            refine ⟨?_, file split⟩
            rw [split]
            exact resolves_branchTarget _ (targeted split)
          · contradiction

end Tables

end BranchCatalog
