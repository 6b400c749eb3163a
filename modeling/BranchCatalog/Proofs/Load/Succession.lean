import BranchCatalog.Proofs.Load.Independence

namespace BranchCatalog

namespace Tables

variable {tables : Tables} {events first second : List Event} {filename : Text}

def withFile (tables : Tables) (filename : Text) : Tables :=
  if (tables.fileId? filename).isSome then tables
  else { tables with files := tables.files.insert filename }

theorem fileId?_withFilesOf_of_stored {id : Id} (stored : tables.fileId? filename = some id)
    (events : List Event) : (tables.withFilesOf events).fileId? filename = some id := by
  have none : (tables.withFilesOf []).fileId? filename = some id := by
    rwa [fileId?_withFilesOf_of_unused tables (by simp)]
  exact fileId?_withFilesOf_append none events

/-- One more event adds the row of its file name. -/
theorem withFilesOf_concat (tables : Tables) (events : List Event) (event : Event) :
    tables.withFilesOf (events ++ [event]) = (tables.withFilesOf events).withFile event.filename := by
  rw [withFile]
  by_cases used : event.filename ∈ events.map Event.filename
  · rw [withFilesOf_concat_of_known (Or.inl used), if_pos (isSome_fileId?_withFilesOf tables used)]
  · cases stored : tables.fileId? event.filename with
    | some id =>
        rw [withFilesOf_concat_of_known (Or.inr (by rw [stored, Option.isSome_some])),
          fileId?_withFilesOf_of_stored stored, if_pos Option.isSome_some]
    | none =>
        rw [withFilesOf_concat_of_new used stored, fileId?_withFilesOf_of_unused tables used, stored]
        rfl

theorem withFilesOf_append (tables : Tables) (first second : List Event) :
    tables.withFilesOf (first ++ second) = (tables.withFilesOf first).withFilesOf second := by
  induction second using List.reverseRecOn with
  | nil => simp [withFilesOf, Table.append_nil]
  | append_singleton second event inductionHypothesis =>
      rw [← List.append_assoc, withFilesOf_concat, withFilesOf_concat, inductionHypothesis]

end Tables

/-- The id of a row after a history goes on from the last id that the history has given out. -/
theorem rowId_of_history {Row : Type} (table : Table Row) (accepted : Event → Bool)
    (history earlier : List Event) (position : Nat) {rows : List Row}
    (size : rows.length = history.countP accepted) :
    rowId table accepted (history ++ earlier) (history.length + position) =
      rowId (table.append rows) accepted earlier position := by
  rw [rowId, rowId, Nat.add_assoc, List.take_length_add_append, List.countP_append, Table.append, size]
  lia

namespace Tables

/-- A declared branch has the same row after any history. -/
theorem branchRow?_of_history (tables : Tables) (history : List Event) {earlier : List Event}
    {event : Event} (declared : event.isDeclared earlier = true) :
    tables.branchRow? (history ++ earlier) event =
      (tables.recording history).branchRow? earlier event := by
  cases event with
  | file | tree | note => rfl
  | branch location finding =>
      rw [Event.isDeclared_branch] at declared
      have size := length_along _ _ (fun _ => tables.isSome_treeRow?) history
      have moved : rowId tables.trees Event.isTree (history ++ earlier) ∘ (history.length + ·) =
          rowId (tables.recording history).trees Event.isTree earlier := by
        funext position
        exact rowId_of_history tables.trees Event.isTree history earlier position size
      rw [branchRow?, branchRow?, treeTarget_of_declared history declared, Option.map_map, moved]
      rfl

/-- A declared note has the same row after any history. -/
theorem noteRow?_of_history (tables : Tables) (history : List Event) {earlier : List Event}
    {event : Event} (whole : DeclaredAfter [] earlier) (declared : event.isDeclared earlier = true)
    (kind : NoteKind) :
    tables.noteRow? kind (history ++ earlier) event =
      (tables.recording history).noteRow? kind earlier event := by
  cases event with
  | file | tree | branch => rfl
  | note found location finding =>
      rw [Event.isDeclared_note] at declared
      have size := length_along _ _ tables.isSome_branchRow? history
      have moved : rowId tables.branches Event.isBranch (history ++ earlier) ∘ (history.length + ·) =
          rowId (tables.recording history).branches Event.isBranch earlier := by
        funext position
        exact rowId_of_history tables.branches Event.isBranch history earlier position size
      rw [noteRow?, noteRow?, branchTarget_of_declared history whole declared, Option.map_map, moved]
      rfl

/-- Declared events are recorded behind the events before them. -/
theorem recording_append (tables : Tables) (first : List Event) {second : List Event}
    (declared : DeclaredAfter [] second) :
    tables.recording (first ++ second) = (tables.recording first).recording second := by
  have branches : along (fun earlier => tables.branchRow? (first ++ earlier)) second =
      along (tables.recording first).branchRow? second := by
    apply along_congr
    intro earlier event later split
    exact tables.branchRow?_of_history first (declared earlier event later split)
  have notes (kind : NoteKind) :
      along (fun earlier => tables.noteRow? kind (first ++ earlier)) second =
        along ((tables.recording first).noteRow? kind) second := by
    apply along_congr
    intro earlier event later split
    rw [split] at declared
    exact tables.noteRow?_of_history first declared.prefix_of_append
      (declared earlier event later rfl) kind
  simp only [recording, along_append, Table.append_append] at branches notes ⊢
  simp only [branches, notes]
  rfl

/-- Events that are declared among themselves extend tables after others as they would alone. -/
theorem extended_append (tables : Tables) (first : List Event) {second : List Event}
    (declared : DeclaredAfter [] second) :
    tables.extended (first ++ second) = (tables.extended first).extended second := by
  have files : (tables.extended first).withFilesOf second =
      { tables.extended first with files := (tables.withFilesOf (first ++ second)).files } := by
    rw [withFilesOf_append]
    rfl
  rw [extended, recording_append _ first declared, recording_withFilesOf_append, extended, files]
  rfl

end Tables

end BranchCatalog
