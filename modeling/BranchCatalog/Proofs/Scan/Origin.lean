import BranchCatalog.Proofs.Scan.Emission
import BranchCatalog.Proofs.Scan.Sequence

namespace BranchCatalog.Scan

/-- A line stands in a content under a number, counted from one. -/
def HasLine (content : Text) (number : Nat) (line : Text) : Prop :=
  0 < number ∧ (Text.lines content)[number - 1]? = some line

/-- A line declares a tree, or it adds a branch to a variable and the tree is the untitled one that is named
after this variable. -/
def IsLineOfTree (finding : TreeFinding) (line : Text) : Prop :=
  declaredTree? line = some finding ∨
    finding.title = [] ∧ finding.name = finding.variableName ∧
      ∃ call, branchCall? line = some call ∧ call.treeVariable = finding.variableName

/-- A line adds a branch of a name, whose arguments give its leaf definition and its value variable. -/
def IsLineOfBranch (name leafDefinition valueVariable line : Text) : Prop :=
  ∃ call, branchCall? line = some call ∧ call.name = name ∧
    call.arguments? = some ⟨valueVariable, leafDefinition⟩

/-- A line makes up a text when it is trimmed, and a variable is one of the tokens of the text. -/
def IsLineOfNote (text valueVariable line : Text) : Prop :=
  Text.trim line = text ∧ valueVariable ∈ lineTokens text

/-- An event is true of a line when the line says what the event says. -/
def IsTrueOf (line : Text) : Event → Prop
  | .file _ => True
  | .tree _ finding => IsLineOfTree finding line
  | .branch _ finding =>
    IsLineOfBranch finding.name finding.leafDefinition finding.valueVariable line
  | .note _ _ finding => IsLineOfNote finding.text finding.valueVariable line

/-- An event is true of numbered lines when it is true of one that has the event's number. -/
def IsTrueAmong (lines : List (Text × Nat)) (event : Event) : Prop :=
  ∀ number, event.line? = some number → ∃ line, (line, number) ∈ lines ∧ IsTrueOf line event

theorem IsTrueAmong.mono {lines more : List (Text × Nat)} {event : Event}
    (holds : IsTrueAmong lines event) (subset : lines ⊆ more) : IsTrueAmong more event := by
  intro number numbered
  obtain ⟨line, member, stands⟩ := holds number numbered
  exact ⟨line, subset member, stands⟩

theorem HasLine.le_length {content line : Text} {number : Nat} (here : HasLine content number line) :
    number ≤ (Text.lines content).length := by
  obtain ⟨positive, found⟩ := here
  obtain ⟨below, -⟩ := List.getElem?_eq_some_iff.mp found
  omega

/-- A numbered line is a line of the content. -/
theorem mem_numberedLines_iff {content line : Text} {number : Nat} :
    (line, number) ∈ Text.numberedLines content ↔ HasLine content number line := by
  rw [Text.numberedLines, List.mem_zipIdx_iff_le_and_getElem?_sub]
  rfl

section Lines

variable {filename : Text} {lines : List (Text × Nat)} {event : Event}

theorem isTrueAmong_of_branch {line : Text} {number : Nat} (member : (line, number) ∈ lines)
    {call : BranchCall} {arguments : BranchArguments} (called : branchCall? line = some call)
    (argued : call.arguments? = some arguments) (treeName : Text) :
    IsTrueAmong lines (.branch ⟨filename, number⟩ (calledBranch treeName call arguments)) := by
  intro other same
  cases same
  exact ⟨line, member, call, called, rfl, argued⟩

/-- A tree that no line declares stands on the line of the call that needs it. -/
theorem isTrueAmong_of_undeclared {line : Text} {number : Nat} (member : (line, number) ∈ lines)
    {call : BranchCall} (called : branchCall? line = some call) :
    IsTrueAmong lines (.tree ⟨filename, number⟩ (undeclaredTree call.treeVariable)) := by
  intro other same
  cases same
  exact ⟨line, member, Or.inr ⟨rfl, rfl, call, called, rfl⟩⟩

/-- All branches of a scan say what stands on their lines. -/
theorem isTrueAmong_of_mem_branchEvents {names : TreeNames} {events : List Event}
    (scanned : branchEvents filename names lines = .ok events) (member : event ∈ events) :
    IsTrueAmong lines event := by
  -- over the lines; a call can extend the names, so these vary along with the events
  induction lines generalizing names events with
  | nil =>
      cases scanned
      contradiction
  | cons numbered lines inductionHypothesis =>
      have first : numbered ∈ numbered :: lines := List.mem_cons_self
      have rest : lines ⊆ numbered :: lines := List.subset_cons_self numbered lines
      rcases branchEvents_cons scanned with ⟨-, later⟩ | ⟨call, arguments, events, called, argued, added⟩
      · exact (inductionHypothesis later member).mono rest
      · rcases added with ⟨treeName, -, later, rfl⟩ | ⟨-, later, rfl⟩
        · rcases List.mem_cons.mp member with rfl | member
          · exact isTrueAmong_of_branch first called argued treeName
          · exact (inductionHypothesis later member).mono rest
        · rcases List.mem_cons.mp member with rfl | member
          · exact isTrueAmong_of_undeclared first called
          · rcases List.mem_cons.mp member with rfl | member
            · exact isTrueAmong_of_branch first called argued call.treeVariable
            · exact (inductionHypothesis later member).mono rest

/-- All notes of a scan say what stands on their lines. -/
theorem isTrueAmong_of_mem_noteEvents {branches : List BranchFinding}
    (member : event ∈ noteEvents filename branches lines) : IsTrueAmong lines event := by
  obtain ⟨line, number, kind, finding, inside, found, rfl⟩ := mem_noteEvents_iff.mp member
  obtain ⟨-, token, -, -, text⟩ := mem_lineNotes_iff.mp found
  intro other same
  cases same
  exact ⟨line, inside, text.symm, text ▸ token⟩

/-- All declarations of a scan say what stands on their lines. -/
theorem isTrueAmong_of_mem_declarationEvents {content : Text}
    (member : event ∈ declarationEvents filename content) :
    IsTrueAmong (Text.numberedLines content) event := by
  rcases List.mem_cons.mp member with rfl | tree
  · exact nofun
  · obtain ⟨⟨finding, number⟩, declared, rfl⟩ := List.mem_map.mp tree
    obtain ⟨⟨line, place⟩, inside, found⟩ := List.mem_filterMap.mp declared
    obtain ⟨other, here, same⟩ := Option.map_eq_some_iff.mp found
    cases same
    intro number same
    cases same
    exact ⟨line, inside, Or.inl here⟩

end Lines

/-- Every event of a scan is true of the line that it names. -/
theorem isTrueAmong_of_mem_scanSource {filename content : Text} {events : List Event}
    (scanned : scanSource filename content = .ok events) {event : Event} (member : event ∈ events) :
    IsTrueAmong (Text.numberedLines content) event := by
  obtain ⟨branches, called, rfl⟩ := exists_of_scanSource scanned
  rcases List.mem_append.mp member with before | note
  · rcases List.mem_append.mp before with declaration | branch
    · exact isTrueAmong_of_mem_declarationEvents declaration
    · exact isTrueAmong_of_mem_branchEvents called branch
  · exact isTrueAmong_of_mem_noteEvents note

section Sources

variable {disk : Disk} {extensions : List Text} {sources : List Source}

/-- A line stands at a location when a scanned source that is recorded under the location's file name has it
there. -/
def StandsAt (disk : Disk) (extensions : List Text) (sources : List Source) (location : Location)
    (line : Text) : Prop :=
  ∃ source ∈ sources, source.filename = location.filename ∧
    (treeScanner extensions).accepts source.path = true ∧
    ∃ content, source.read disk = .ok content ∧ HasLine content location.line line

theorem StandsAt.mono {more : List Source} {location : Location} {line : Text}
    (stands : StandsAt disk extensions sources location line) (subset : sources ⊆ more) :
    StandsAt disk extensions more location line := by
  obtain ⟨source, member, whole⟩ := stands
  exact ⟨source, subset member, whole⟩

/-- Every event of the scans of sources is true of a line that stands where the event says. -/
theorem exists_line_of_mem_scanAll {event : Event}
    (member : event ∈ (scanAll disk [treeScanner extensions] sources).1) {number : Nat}
    (numbered : event.line? = some number) :
    ∃ line, StandsAt disk extensions sources ⟨event.filename, number⟩ line ∧ IsTrueOf line event := by
  induction sources with
  | nil => contradiction
  | cons source sources inductionHypothesis =>
      have rest : sources ⊆ source :: sources := List.subset_cons_self source sources
      rw [scanAll] at member
      rcases scanned : scanOne disk [treeScanner extensions] source with _ | fault | events
      · rw [scanned] at member
        obtain ⟨line, stands, holds⟩ := inductionHypothesis member
        exact ⟨line, stands.mono rest, holds⟩
      · rw [scanned] at member
        contradiction
      · rw [scanned] at member
        rcases List.mem_append.mp member with here | later
        · obtain ⟨accepted, content, reading, scanned⟩ := exists_of_scanOne scanned
          obtain ⟨line, inside, holds⟩ :=
            isTrueAmong_of_mem_scanSource scanned here number numbered
          refine ⟨line, ⟨source, List.mem_cons_self, ?_, accepted, content, reading, ?_⟩, holds⟩
          · exact (filename_of_mem_scanSource scanned here).symm
          · exact mem_numberedLines_iff.mp inside
        · obtain ⟨line, stands, holds⟩ := inductionHypothesis later
          exact ⟨line, stands.mono rest, holds⟩

end Sources

end BranchCatalog.Scan
