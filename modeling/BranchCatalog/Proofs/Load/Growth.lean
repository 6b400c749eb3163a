import BranchCatalog.Proofs.Load.Reference
import Mathlib.Data.List.Induction

namespace BranchCatalog

/-- The names of files in the order of their first use grow only by a new name. -/
theorem eraseDups_concat (names : List Text) (name : Text) :
    (names ++ [name]).eraseDups =
      if name ∈ names then names.eraseDups else names.eraseDups ++ [name] := by
  rw [List.eraseDups_append, List.cons_removeAll]
  by_cases member : name ∈ names <;> simp [member, List.eraseDups_cons]

section Ids

variable {Row : Type} (table : Table Row) (accepted : Event → Bool)

/-- Later events leave the ids of the rows of earlier events as they are. -/
theorem rowId_append {earlier : List Event} {position : Nat} (inside : position < earlier.length)
    (later : List Event) :
    rowId table accepted (earlier ++ later) position = rowId table accepted earlier position := by
  rw [rowId, rowId, List.take_append_of_le_length (by omega)]

/-- The row of an accepted event takes the id that comes next. -/
theorem rowId_concat_length {accepted : Event → Bool} {events : List Event} {event : Event}
    (chosen : accepted event = true) {rows : List Row} (size : rows.length = events.countP accepted) :
    rowId table accepted (events ++ [event]) events.length = (table.append rows).lastId + 1 := by
  have whole : (events ++ [event]).take (events.length + 1) = events ++ [event] :=
    List.take_of_length_le (by simp)
  rw [rowId, whole, List.countP_append, List.countP_singleton, if_pos chosen, ← size, Table.append]
  lia

/-- Accepted events at different positions have rows with different ids. -/
theorem rowId_injective {events : List Event} {left right : Event} {one other : Nat}
    (leftAt : events[one]? = some left) (rightAt : events[other]? = some right)
    (leftChosen : accepted left = true) (rightChosen : accepted right = true)
    (same : rowId table accepted events one = rowId table accepted events other) : one = other := by
  have apart {low high : Nat} {below above : Event} (ordered : low < high)
      (lowAt : events[low]? = some below) (highAt : events[high]? = some above)
      (chosen : accepted above = true) :
      rowId table accepted events low < rowId table accepted events high := by
    obtain ⟨highInside, highIs⟩ := List.getElem?_eq_some_iff.mp highAt
    have lowInside : low < events.length := by omega
    have count : (events.take (high + 1)).countP accepted =
        (events.take high).countP accepted + 1 := by
      rw [List.take_succ_eq_append_getElem highInside, List.countP_append, highIs,
        List.countP_singleton, if_pos chosen]
    have fewer : (events.take (low + 1)).countP accepted ≤ (events.take high).countP accepted :=
      (List.take_sublist_take_left (by omega)).countP_le
    rw [rowId, rowId, count]
    lia
  rcases Nat.lt_trichotomy one other with below | equal | above
  · have less := apart below leftAt rightAt rightChosen
    rw [same] at less
    exact absurd less (Int.lt_irrefl _)
  · exact equal
  · have less := apart above rightAt leftAt leftChosen
    rw [same] at less
    exact absurd less (Int.lt_irrefl _)

end Ids

section Rows

variable {Row : Type} (table : Table Row) {accepted : Event → Bool}
  {judge : List Event → Event → Option Row} {events : List Event}

/-- The row that an event gives rise to stands under the id that the event's position gives. -/
theorem stored_rowId (same : ∀ earlier event, (judge earlier event).isSome = accepted event)
    {earlier later : List Event} {event : Event} {row : Row}
    (split : events = earlier ++ event :: later) (judged : judge earlier event = some row) :
    ⟨rowId table accepted events earlier.length, row⟩ ∈ (table.append (along judge events)).rows := by
  have chosen : accepted event = true := by rw [← same earlier, judged, Option.isSome_some]
  have size := length_along judge accepted same earlier
  have before : events.take (earlier.length + 1) = earlier ++ [event] := by
    rw [split, List.take_length_add_append, List.take_succ_cons, List.take_zero]
  rw [Table.mem_append_rows]
  refine Or.inr ⟨(along judge earlier).length, ?_, ?_⟩
  · simp [split, along_append, along, judged]
  · rw [rowId, before, List.countP_append, List.countP_singleton, if_pos chosen, size]
    lia

theorem contains_rowId (same : ∀ earlier event, (judge earlier event).isSome = accepted event)
    {position : Nat} {event : Event} (present : events[position]? = some event)
    (chosen : accepted event = true) :
    (table.append (along judge events)).contains (rowId table accepted events position) = true := by
  obtain ⟨inside, rfl⟩ := List.getElem?_eq_some_iff.mp present
  have split : events = events.take position ++ events[position] :: events.drop (position + 1) := by
    rw [List.getElem_cons_drop, List.take_append_drop]
  have size : (events.take position).length = position := List.length_take_of_le (by omega)
  obtain ⟨row, judged⟩ := Option.isSome_iff_exists.mp
    ((same (events.take position) events[position]).trans chosen)
  have stored := stored_rowId table same split judged
  rw [size] at stored
  exact List.any_eq_true.mpr ⟨_, stored, by simp⟩

end Rows

/-- One more event adds one row to a table when it gives rise to one. -/
theorem append_along_concat {Row : Type} (table : Table Row)
    (judge : List Event → Event → Option Row) (events : List Event) (event : Event) :
    table.append (along judge (events ++ [event])) =
      match judge events event with
      | some row => (table.append (along judge events)).insert row
      | none => table.append (along judge events) := by
  rw [along_concat]
  cases judge events event with
  | none => rw [Option.toList_none, List.append_nil]
  | some row => rw [Option.toList_some, Table.append_concat]

namespace Tables

variable {tables : Tables} {earlier : List Event} {event : Event}

/-- A name that was used before, or that has a row already, adds no row. -/
theorem withFilesOf_concat_of_known
    (known : event.filename ∈ earlier.map Event.filename ∨ (tables.fileId? event.filename).isSome) :
    tables.withFilesOf (earlier ++ [event]) = tables.withFilesOf earlier := by
  have same : ((earlier ++ [event]).map Event.filename).eraseDups.filter
        (fun name => (tables.fileId? name).isNone) =
      (earlier.map Event.filename).eraseDups.filter (fun name => (tables.fileId? name).isNone) := by
    rw [List.map_append, List.map_singleton, eraseDups_concat]
    split
    · rfl
    · next new =>
        have stored := known.resolve_left new
        obtain ⟨id, found⟩ := Option.isSome_iff_exists.mp stored
        simp [found]
  rw [withFilesOf, withFilesOf, same]

/-- An event in a new file adds a row for the file. -/
theorem withFilesOf_concat_of_new (unused : event.filename ∉ earlier.map Event.filename)
    (unstored : tables.fileId? event.filename = none) :
    tables.withFilesOf (earlier ++ [event]) =
      { tables.withFilesOf earlier with
        files := (tables.withFilesOf earlier).files.insert event.filename } := by
  have more : ((earlier ++ [event]).map Event.filename).eraseDups.filter
        (fun name => (tables.fileId? name).isNone) =
      (earlier.map Event.filename).eraseDups.filter (fun name => (tables.fileId? name).isNone) ++
        [event.filename] := by
    rw [List.map_append, List.map_singleton, eraseDups_concat, if_neg unused, List.filter_append]
    simp [unstored]
  rw [withFilesOf, more, Table.append_concat]
  rfl

/-- A new row of the file table is found under its name and hides no other. -/
theorem fileId?_insert (tables : Tables) (inserted filename : Text) :
    fileId? { tables with files := tables.files.insert inserted } filename =
      (tables.fileId? filename).or
        (if inserted = filename then some (tables.files.lastId + 1) else none) := by
  simp only [fileId?, Table.insert, List.find?_append, List.find?_singleton, decide_eq_true_eq]
  cases tables.files.rows.find? (·.row = filename) with
  | some stored => rfl
  | none => by_cases same : inserted = filename <;> simp [same]

/-- An event changes the row of no other name than its own. -/
theorem fileId?_withFilesOf_concat_of_ne {filename : Text} (other : event.filename ≠ filename) :
    (tables.withFilesOf (earlier ++ [event])).fileId? filename =
      (tables.withFilesOf earlier).fileId? filename := by
  by_cases known : event.filename ∈ earlier.map Event.filename ∨
      (tables.fileId? event.filename).isSome
  · rw [withFilesOf_concat_of_known known]
  · rw [not_or, Option.not_isSome_iff_eq_none] at known
    rw [withFilesOf_concat_of_new known.1 known.2, fileId?_insert, if_neg other]
    exact Option.or_none

/-- Names that the events do not use have the rows that they had. -/
theorem fileId?_withFilesOf_of_unused (tables : Tables) {filename : Text}
    (unused : filename ∉ earlier.map Event.filename) :
    (tables.withFilesOf earlier).fileId? filename = tables.fileId? filename := by
  induction earlier using List.reverseRecOn with
  | nil => simp [withFilesOf, Table.append_nil]
  | append_singleton earlier event inductionHypothesis =>
      rw [List.map_append, List.mem_append, not_or] at unused
      have other : event.filename ≠ filename := by
        intro same
        exact unused.2 (by simp [same])
      rw [fileId?_withFilesOf_concat_of_ne other, inductionHypothesis unused.1]

/-- Names that have a row keep it while more events come. -/
theorem fileId?_withFilesOf_concat {filename : Text} {id : Id}
    (found : (tables.withFilesOf earlier).fileId? filename = some id) (event : Event) :
    (tables.withFilesOf (earlier ++ [event])).fileId? filename = some id := by
  by_cases known : event.filename ∈ earlier.map Event.filename ∨
      (tables.fileId? event.filename).isSome
  · rw [withFilesOf_concat_of_known known, found]
  · rw [not_or, Option.not_isSome_iff_eq_none] at known
    rw [withFilesOf_concat_of_new known.1 known.2, fileId?_insert, found]
    rfl

/-- Every name that the events use has a row. -/
theorem isSome_fileId?_withFilesOf (tables : Tables) {filename : Text}
    (used : filename ∈ earlier.map Event.filename) :
    ((tables.withFilesOf earlier).fileId? filename).isSome := by
  induction earlier using List.reverseRecOn with
  | nil => simp at used
  | append_singleton earlier event inductionHypothesis =>
      by_cases before : filename ∈ earlier.map Event.filename
      · obtain ⟨id, found⟩ := Option.isSome_iff_exists.mp (inductionHypothesis before)
        rw [fileId?_withFilesOf_concat found, Option.isSome_some]
      · have here : event.filename = filename := by
          rw [List.map_append, List.mem_append] at used
          simpa [eq_comm] using used.resolve_left before
        subst here
        cases stored : tables.fileId? event.filename with
        | some id =>
            have kept := fileId?_withFilesOf_of_unused tables before
            rw [fileId?_withFilesOf_concat (kept.trans stored), Option.isSome_some]
        | none =>
            rw [withFilesOf_concat_of_new before stored, fileId?_insert, if_pos rfl]
            simp

/-- Rows of files are numbered as they come. -/
theorem numbered_withFilesOf (numbered : tables.files.Numbered) (events : List Event) :
    (tables.withFilesOf events).files.Numbered :=
  numbered.append _

/-- Names that have a row keep it in the tables of any more events. -/
theorem fileId?_withFilesOf_append {filename : Text} {id : Id}
    (found : (tables.withFilesOf earlier).fileId? filename = some id) (later : List Event) :
    (tables.withFilesOf (earlier ++ later)).fileId? filename = some id := by
  induction later using List.reverseRecOn with
  | nil => rwa [List.append_nil]
  | append_singleton later event inductionHypothesis =>
      rw [← List.append_assoc]
      exact fileId?_withFilesOf_concat inductionHypothesis event

/-- The rows of events refer to files by name only, so that other files under which the names have the
same ids leave them as they are. -/
theorem recording_of_same_files (tables : Tables) (files : Table Text) {events : List Event}
    (same : ∀ event ∈ events, fileId? { tables with files } event.filename =
      tables.fileId? event.filename) :
    recording { tables with files } events = { tables.recording events with files } := by
  have trees : along (fun _ => treeRow? { tables with files }) events =
      along (fun _ => tables.treeRow?) events := by
    apply along_congr
    intro before used later split
    have files := same used (by simp [split])
    cases used <;> simp_all [treeRow?, Event.filename]
  have branches : along (branchRow? { tables with files }) events =
      along tables.branchRow? events := by
    apply along_congr
    intro before used later split
    have files := same used (by simp [split])
    cases used <;> simp_all [branchRow?, Event.filename]
  have notes (kind : NoteKind) : along (noteRow? { tables with files } kind) events =
      along (tables.noteRow? kind) events := by
    apply along_congr
    intro before used later split
    have files := same used (by simp [split])
    cases used <;> simp_all [noteRow?, Event.filename]
  rw [recording, recording, trees, branches, notes, notes]

/-- The files of later events leave the rows of earlier ones as they are. -/
theorem recording_withFilesOf_append (tables : Tables) (earlier later : List Event) :
    (tables.withFilesOf (earlier ++ later)).recording earlier =
      { (tables.withFilesOf earlier).recording earlier with
        files := (tables.withFilesOf (earlier ++ later)).files } := by
  apply recording_of_same_files (tables.withFilesOf earlier)
  intro used member
  obtain ⟨id, found⟩ := Option.isSome_iff_exists.mp
    (isSome_fileId?_withFilesOf tables (List.mem_map_of_mem member))
  rw [found]
  exact fileId?_withFilesOf_append found later

end Tables

end BranchCatalog
