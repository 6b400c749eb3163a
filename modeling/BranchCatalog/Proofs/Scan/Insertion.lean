import BranchCatalog.Proofs.Scan.Origin

namespace BranchCatalog

namespace Text

/-- The text that lines make up when each of them is ended by a line feed. -/
def ofLines (lines : List Text) : Text :=
  lines.flatMap (· ++ ['\n'])

/-- A text that stays a line of its own when a line feed is put behind it. -/
def IsPlain (line : Text) : Prop :=
  '\n' ∉ line ∧ '\r' ∉ line

instance (line : Text) : Decidable (IsPlain line) :=
  inferInstanceAs (Decidable ('\n' ∉ line ∧ '\r' ∉ line))

/-- A plain line before a text is its first line. -/
theorem lines_append {line : Text} (plain : IsPlain line) (rest : Text) :
    lines (line ++ '\n' :: rest) = line :: lines rest := by
  have kept : dropReturn line = line := by
    rw [dropReturn, if_neg]
    intro ends
    exact plain.2 (List.mem_of_getLast? ends)
  rw [lines, split_append_of_not_mem plain.1, lines]
  obtain ⟨piece, pieces, found⟩ := List.exists_cons_of_ne_nil (split_ne_nil '\n' rest)
  rw [found, linesOfPieces, linesOfPieces, List.dropLast_cons_cons, List.getLast?_cons_cons, List.map_cons,
    kept]
  cases (piece :: pieces).getLast? with
  | none => rfl
  | some last => cases last <;> rfl

theorem lines_ofLines_append {before : List Text} (plain : ∀ line ∈ before, IsPlain line) (rest : Text) :
    lines (ofLines before ++ rest) = before ++ lines rest := by
  induction before with
  | nil => rfl
  | cons line before inductionHypothesis =>
      obtain ⟨first, others⟩ := List.forall_mem_cons.mp plain
      have whole : ofLines (line :: before) ++ rest = line ++ '\n' :: (ofLines before ++ rest) := by
        simp [ofLines]
      rw [whole, lines_append first, inductionHypothesis others, List.cons_append]

end Text

def Location.renumbered (place : Nat → Nat) (location : Location) : Location :=
  { location with line := place location.line }

def Event.renumbered (place : Nat → Nat) : Event → Event
  | file filename => file filename
  | tree location finding => tree (location.renumbered place) finding
  | branch location finding => branch (location.renumbered place) finding
  | note kind location finding => note kind (location.renumbered place) finding

/-- A fault of a scan with its line numbered anew. -/
def Fault.renumbered (place : Nat → Nat) : Fault → Fault
  | unrecognizedBranch location text => unrecognizedBranch (location.renumbered place) text
  | fault => fault

namespace Scan

/-- The outcome of a scan with all its lines numbered anew. -/
def renumbered (place : Nat → Nat) : Except Fault (List Event) → Except Fault (List Event)
  | .ok events => .ok (events.map (Event.renumbered place))
  | .error fault => .error (fault.renumbered place)

/-- The number that a line has when a line is inserted under a number. -/
def numberAfter (inserted number : Nat) : Nat :=
  if inserted ≤ number then number + 1 else number

/-- The variables that fill the branches of a content. -/
def valueVariables (content : Text) : List Text :=
  ((Text.lines content).filterMap branchCall?).filterMap fun call => call.arguments?.map (·.valueVariable)

/-- A line declares no tree and adds no branch, and it is a directive or has none of the variables that fill
the branches of a content among its tokens. -/
structure IsInert (content line : Text) : Prop where
  declaresNone : declaredTree? line = none
  callsNone : branchCall? line = none
  notesNone : (Text.trim line).head? = some '#' ∨
    ∀ variableName ∈ lineTokens (Text.trim line), variableName ∉ valueVariables content

/-- The variable of a branch on a line is one of the value variables of the content. -/
theorem mem_valueVariables {content line name leafDefinition variableName : Text} {number : Nat}
    (stands : HasLine content number line) (fills : IsLineOfBranch name leafDefinition variableName line) :
    variableName ∈ valueVariables content := by
  obtain ⟨call, called, -, argued⟩ := fills
  have listed : call ∈ (Text.lines content).filterMap branchCall? :=
    List.mem_filterMap.mpr ⟨line, List.mem_of_getElem? stands.2, called⟩
  exact List.mem_filterMap.mpr ⟨call, listed, by rw [argued]; rfl⟩

section Renumbered

variable {filename : Text} {lines : List (Text × Nat)} (place : Nat → Nat)

/-- Numbering lines anew numbers the declared trees anew. -/
theorem declaredTrees_map :
    declaredTrees (lines.map (Prod.map id place)) = (declaredTrees lines).map (Prod.map id place) := by
  rw [declaredTrees, declaredTrees, List.filterMap_map, List.map_filterMap]
  apply List.filterMap_congr
  rintro ⟨line, number⟩ -
  simp [Function.comp_def, Prod.map]

/-- The branch pass carries the number of a line into the events and the fault of the line, and uses it for
nothing else. -/
theorem branchEvents_map (names : TreeNames) :
    branchEvents filename names (lines.map (Prod.map id place)) =
      renumbered place (branchEvents filename names lines) := by
  induction lines generalizing names with
  | nil => rfl
  | cons numbered lines inductionHypothesis =>
      obtain ⟨line, number⟩ := numbered
      change branchEvents filename names ((line, place number) :: lines.map (Prod.map id place)) = _
      rw [branchEvents, branchEvents]
      cases branchCall? line with
      | none => exact inductionHypothesis names
      | some call =>
          simp only
          cases call.arguments? with
          | none => rfl
          | some arguments =>
              simp only
              cases names.lookup call.treeVariable with
              | some treeName =>
                  simp only [inductionHypothesis]
                  cases branchEvents filename names lines <;> rfl
              | none =>
                  simp only [inductionHypothesis]
                  cases branchEvents filename ((call.treeVariable, call.treeVariable) :: names) lines <;> rfl

/-- Numbering lines anew numbers the notes anew. -/
theorem noteEvents_map (branches : List BranchFinding) :
    noteEvents filename branches (lines.map (Prod.map id place)) =
      (noteEvents filename branches lines).map (Event.renumbered place) := by
  rw [noteEvents, noteEvents, List.flatMap_map, List.map_flatMap]
  apply List.flatMap_congr
  rintro ⟨line, number⟩ -
  simp [Function.comp_def, Event.renumbered, Location.renumbered]

end Renumbered

section Inert

variable {filename content line : Text} {number : Nat} (first second : List (Text × Nat))

/-- An inert line declares nothing. -/
theorem declaredTrees_insert (inert : IsInert content line) :
    declaredTrees (first ++ (line, number) :: second) = declaredTrees (first ++ second) := by
  simp [declaredTrees, inert.declaresNone]

/-- An inert line adds no branch. -/
theorem branchEvents_insert (inert : IsInert content line) (names : TreeNames) :
    branchEvents filename names (first ++ (line, number) :: second) =
      branchEvents filename names (first ++ second) := by
  -- over the lines before the inserted one; a call among them can extend the names
  induction first generalizing names with
  | nil => rw [List.nil_append, branchEvents, inert.callsNone, List.nil_append]
  | cons numbered first inductionHypothesis =>
      obtain ⟨other, place⟩ := numbered
      rw [List.cons_append, List.cons_append, branchEvents, branchEvents]
      simp only [inductionHypothesis]

/-- An inert line is no note on a branch of its content. -/
theorem lineNotes_eq_nil (inert : IsInert content line) {names : TreeNames} {branches : List Event}
    (called : branchEvents filename names (Text.numberedLines content) = .ok branches) :
    lineNotes (branches.filterMap branchOf?) (Text.trim line) = [] := by
  rw [List.eq_nil_iff_forall_not_mem]
  rintro ⟨kind, finding⟩ member
  obtain ⟨code, token, filled, -⟩ := mem_lineNotes_iff.mp member
  rcases inert.notesNone with directive | none
  · exact code directive
  · obtain ⟨branch, present, -, -, variableName⟩ := mem_branchesFilledFrom_iff.mp filled
    obtain ⟨location, added⟩ := mem_branches_iff.mp present
    obtain ⟨other, inside, fills⟩ := isTrueAmong_of_mem_branchEvents called added location.line rfl
    rw [← variableName] at token
    exact none _ token (mem_valueVariables (mem_numberedLines_iff.mp inside) fills)

/-- A line without notes adds none. -/
theorem noteEvents_insert {branches : List BranchFinding}
    (none : lineNotes branches (Text.trim line) = []) :
    noteEvents filename branches (first ++ (line, number) :: second) =
      noteEvents filename branches (first ++ second) := by
  simp [noteEvents, none]

end Inert

section Inserted

variable {filename content inserted line : Text} {before behind : List Text}

theorem map_numberAfter_of_lt {number : Nat} {lines : List (Text × Nat)}
    (below : ∀ numbered ∈ lines, numbered.2 < number) :
    lines.map (Prod.map id (numberAfter number)) = lines := by
  have kept : ∀ numbered ∈ lines, Prod.map id (numberAfter number) numbered = id numbered := by
    intro numbered member
    rw [Prod.map, numberAfter, if_neg (Nat.not_le.mpr (below numbered member))]
    rfl
  rw [List.map_congr_left kept, List.map_id]

theorem map_numberAfter_of_le {number : Nat} {lines : List (Text × Nat)}
    (above : ∀ numbered ∈ lines, number ≤ numbered.2) :
    lines.map (Prod.map id (numberAfter number)) = lines.map (Prod.map id (· + 1)) := by
  apply List.map_congr_left
  intro numbered member
  rw [Prod.map, numberAfter, if_pos (above numbered member)]
  rfl

/-- The lines around an inserted one are the lines of before with the numbers that they have afterwards. -/
theorem numberedLines_insert (whole : Text.lines content = before ++ behind)
    (more : Text.lines inserted = before ++ line :: behind) :
    ∃ first second, Text.numberedLines inserted = first ++ (line, before.length + 1) :: second ∧
      (Text.numberedLines content).map (Prod.map id (numberAfter (before.length + 1))) =
        first ++ second := by
  refine ⟨before.zipIdx 1, behind.zipIdx (before.length + 2), ?_, ?_⟩
  · rw [Text.numberedLines, more, List.zipIdx_append, List.zipIdx_cons, Nat.add_comm 1]
  · rw [Text.numberedLines, whole, List.zipIdx_append, List.map_append, Nat.add_comm 1,
      map_numberAfter_of_lt fun _ => List.snd_lt_of_mem_zipIdx,
      map_numberAfter_of_le fun _ => List.le_snd_of_mem_zipIdx, List.map_snd_add_zipIdx_eq_zipIdx,
      Nat.add_comm 1]

/-- A scan of a content with an inert line put among its lines is the scan without it, with the lines numbered
as they are then. -/
theorem scanSource_of_split {place : Nat → Nat} {number : Nat} {first second : List (Text × Nat)}
    (filename : Text) (split : Text.numberedLines inserted = first ++ (line, number) :: second)
    (same : (Text.numberedLines content).map (Prod.map id place) = first ++ second)
    (inert : IsInert content line) :
    scanSource filename inserted = renumbered place (scanSource filename content) := by
  have trees : declaredTrees (Text.numberedLines inserted) =
      (declaredTrees (Text.numberedLines content)).map (Prod.map id place) := by
    rw [split, declaredTrees_insert first second inert, ← same, declaredTrees_map]
  have names : declaredNames inserted = declaredNames content := by
    rw [declaredNames, declaredNames, trees, List.map_map]
    rfl
  have declarations : declarationEvents filename inserted =
      (declarationEvents filename content).map (Event.renumbered place) := by
    rw [declarationEvents, declarationEvents, trees, List.map_map, List.map_cons, List.map_map]
    rfl
  have called : branchEvents filename (declaredNames inserted) (Text.numberedLines inserted) =
      renumbered place
        (branchEvents filename (declaredNames content) (Text.numberedLines content)) := by
    rw [names, split, branchEvents_insert first second inert, ← same, branchEvents_map]
  rw [scanSource_eq, scanSource_eq, called]
  cases scanned : branchEvents filename (declaredNames content) (Text.numberedLines content) with
  | error fault => rfl
  | ok branches =>
      have kept : (branches.map (Event.renumbered place)).filterMap branchOf? =
          branches.filterMap branchOf? := by
        rw [List.filterMap_map]
        apply List.filterMap_congr
        intro event _
        cases event <;> rfl
      have notes : noteEvents filename (branches.filterMap branchOf?) (Text.numberedLines inserted) =
          (noteEvents filename (branches.filterMap branchOf?) (Text.numberedLines content)).map
            (Event.renumbered place) := by
        rw [split, noteEvents_insert first second (lineNotes_eq_nil inert scanned), ← same, noteEvents_map]
      simp only [renumbered, Except.bind, kept, notes, declarations]
      cases built : buildPatterns (branches.filterMap branchOf?) with
      | error fault =>
          rw [buildPatterns_eq] at built
          split at built <;> cases built
          rfl
      | ok => simp only [Except.map, List.map_append]

/-- A line that is inert in a content can be inserted anywhere: a scan then gives the same events in the same
order, or the same fault, and only the numbers of the lines behind grow by one. -/
theorem scanSource_insert (filename : Text) {before : List Text}
    (plain : ∀ other ∈ before, Text.IsPlain other) (plainLine : Text.IsPlain line) (rest : Text)
    (inert : IsInert (Text.ofLines before ++ rest) line) :
    scanSource filename (Text.ofLines before ++ (line ++ '\n' :: rest)) =
      renumbered (numberAfter (before.length + 1)) (scanSource filename (Text.ofLines before ++ rest)) := by
  have whole := Text.lines_ofLines_append plain rest
  have more : Text.lines (Text.ofLines before ++ (line ++ '\n' :: rest)) =
      before ++ line :: Text.lines rest := by
    rw [Text.lines_ofLines_append plain, Text.lines_append plainLine]
  obtain ⟨first, second, split, same⟩ := numberedLines_insert whole more
  exact scanSource_of_split filename split same inert

/-- A commented line between a branch and an assignment to its variable, of whose name it has a part. -/
theorem scanSource_insert_between :
    let before := ["t->Branch(\"b\", &v.x);".toList]
    let line := " v = 1; // \"v.x\"".toList
    let rest := "v.x = 2;".toList
    let events (number : Nat) : List Event := [.file ['a'], .tree ⟨['a'], 1⟩ (undeclaredTree ['t']),
      .branch ⟨['a'], 1⟩ ⟨['t'], ['b'], "b (object)".toList, "v.x".toList⟩,
      .note .assignment ⟨['a'], number⟩ ⟨['t'], ['b'], "v.x".toList, "v.x = 2;".toList⟩]
    scanSource ['a'] (Text.ofLines before ++ rest) = .ok (events 2) ∧
      scanSource ['a'] (Text.ofLines before ++ (line ++ '\n' :: rest)) = .ok (events 3) := by
  intro before line rest events
  have scanned : scanSource ['a'] (Text.ofLines before ++ rest) = .ok (events 2) := by decide +kernel
  have inert : IsInert (Text.ofLines before ++ rest) line :=
    ⟨by decide +kernel, rfl, Or.inr (by decide +kernel)⟩
  refine ⟨scanned, ?_⟩
  rw [scanSource_insert ['a'] (by decide) (by decide) rest inert, scanned]
  rfl

end Inserted

end Scan

end BranchCatalog
