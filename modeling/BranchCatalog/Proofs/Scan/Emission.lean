import BranchCatalog.Proofs.Load.Declared
import BranchCatalog.Scan.Source

namespace BranchCatalog.Scan

/-- The branch that a call with some arguments adds to a tree of a name. -/
def calledBranch (treeName : Text) (call : BranchCall) (arguments : BranchArguments) :
    BranchFinding :=
  { treeName, name := call.name, leafDefinition := arguments.leafDefinition,
    valueVariable := arguments.valueVariable }

/-- A line without a branch call adds nothing; a line with one adds a branch to the tree that its
variable holds, or else a tree that is named after the variable and a branch to it. -/
theorem branchEvents_cons {filename line : Text} {names : TreeNames} {number : Nat}
    {lines : List (Text × Nat)} {events : List Event}
    (scanned : branchEvents filename names ((line, number) :: lines) = .ok events) :
    (branchCall? line = none ∧ branchEvents filename names lines = .ok events) ∨
      ∃ call arguments rest, branchCall? line = some call ∧ call.arguments? = some arguments ∧
        ((∃ treeName, names.lookup call.treeVariable = some treeName ∧
            branchEvents filename names lines = .ok rest ∧
            events = .branch ⟨filename, number⟩ (calledBranch treeName call arguments) :: rest) ∨
          (names.lookup call.treeVariable = none ∧
            branchEvents filename ((call.treeVariable, call.treeVariable) :: names) lines = .ok rest ∧
            events = .tree ⟨filename, number⟩ (undeclaredTree call.treeVariable) ::
              .branch ⟨filename, number⟩ (calledBranch call.treeVariable call arguments) :: rest)) := by
  rw [branchEvents] at scanned
  cases called : branchCall? line with
  | none =>
      rw [called] at scanned
      exact Or.inl ⟨rfl, scanned⟩
  | some call =>
      rw [called] at scanned
      simp only at scanned
      cases argued : call.arguments? with
      | none => simp [argued] at scanned
      | some arguments =>
          rw [argued] at scanned
          simp only at scanned
          refine Or.inr ⟨call, arguments, ?_⟩
          cases held : names.lookup call.treeVariable with
          | some treeName =>
              rw [held] at scanned
              cases later : branchEvents filename names lines with
              | error fault => simp [later, Except.map] at scanned
              | ok rest =>
                  simp only [later, Except.map, Except.ok.injEq] at scanned
                  exact ⟨rest, rfl, argued, Or.inl ⟨treeName, rfl, rfl, scanned.symm⟩⟩
          | none =>
              rw [held] at scanned
              cases later : branchEvents filename ((call.treeVariable, call.treeVariable) :: names)
                  lines with
              | error fault => simp [later, Except.map] at scanned
              | ok rest =>
                  simp only [later, Except.map, Except.ok.injEq] at scanned
                  exact ⟨rest, rfl, argued, Or.inr ⟨rfl, rfl, scanned.symm⟩⟩

/-- The branch pass emits under the scanned file name and emits no notes. -/
theorem filename_of_mem_branchEvents {filename : Text} {names : TreeNames}
    {lines : List (Text × Nat)} {events : List Event}
    (scanned : branchEvents filename names lines = .ok events) {event : Event}
    (member : event ∈ events) : event.filename = filename ∧ ∀ kind, event.isNote kind = false := by
  induction lines generalizing names events with
  | nil =>
      cases scanned
      contradiction
  | cons numbered lines inductionHypothesis =>
      rcases branchEvents_cons scanned with ⟨-, rest⟩ | ⟨call, arguments, rest, -, -, added⟩
      · exact inductionHypothesis rest member
      · rcases added with ⟨treeName, -, later, rfl⟩ | ⟨-, later, rfl⟩
        · rcases List.mem_cons.mp member with rfl | after
          · exact ⟨rfl, fun _ => rfl⟩
          · exact inductionHypothesis later after
        · rcases List.mem_cons.mp member with rfl | member
          · exact ⟨rfl, fun _ => rfl⟩
          · rcases List.mem_cons.mp member with rfl | after
            · exact ⟨rfl, fun _ => rfl⟩
            · exact inductionHypothesis later after

/-- The names that variables hold are declared when each has a tree of the file among the prior events. -/
def NamesDeclared (filename : Text) (prior : List Event) (names : TreeNames) : Prop :=
  ∀ variableName treeName, names.lookup variableName = some treeName →
    prior.any (Event.declaresTreeOf treeName filename) = true

namespace NamesDeclared

variable {filename : Text} {prior : List Event} {names : TreeNames}

theorem append (declared : NamesDeclared filename prior names) (more : List Event) :
    NamesDeclared filename (prior ++ more) names := by
  intro variableName treeName held
  rw [List.any_append, declared variableName treeName held, Bool.true_or]

/-- An undeclared tree declares the name of its variable. -/
theorem undeclared (declared : NamesDeclared filename prior names) (variableName : Text)
    (number : Nat) :
    NamesDeclared filename
      (prior ++ [Event.tree ⟨filename, number⟩ (undeclaredTree variableName)])
      ((variableName, variableName) :: names) := by
  intro other treeName held
  by_cases same : other = variableName
  · subst same
    rw [List.lookup_cons_self, Option.some.injEq] at held
    rw [List.any_append, ← held]
    simp [Event.declaresTreeOf, Event.declaresTree, Event.filename, undeclaredTree]
  · rw [List.lookup_cons, beq_false_of_ne same] at held
    exact declared.append _ other treeName held

/-- A called branch is declared when its variable holds a declared tree. -/
theorem isDeclared_calledBranch (declared : NamesDeclared filename prior names) {call : BranchCall}
    {treeName : Text} (held : names.lookup call.treeVariable = some treeName) (number : Nat)
    (arguments : BranchArguments) :
    (Event.branch ⟨filename, number⟩ (calledBranch treeName call arguments)).isDeclared prior =
      true := by
  rw [Event.isDeclared_branch]
  exact declared call.treeVariable treeName held

end NamesDeclared

/-- Each branch of the branch pass comes after a tree of its name. -/
theorem declaredAfter_branchEvents {filename : Text} {names : TreeNames}
    {lines : List (Text × Nat)} {prior events : List Event}
    (declared : NamesDeclared filename prior names)
    (scanned : branchEvents filename names lines = .ok events) : DeclaredAfter prior events := by
  induction lines generalizing names prior events with
  | nil =>
      cases scanned
      exact DeclaredAfter.nil prior
  | cons numbered lines inductionHypothesis =>
      rcases branchEvents_cons scanned with ⟨-, rest⟩ | ⟨call, arguments, rest, -, -, added⟩
      · exact inductionHypothesis declared rest
      · rcases added with ⟨treeName, held, later, rfl⟩ | ⟨-, later, rfl⟩
        · apply DeclaredAfter.cons (declared.isDeclared_calledBranch held _ _)
          exact inductionHypothesis (declared.append _) later
        · have extended := declared.undeclared call.treeVariable numbered.2
          apply DeclaredAfter.cons rfl
          apply DeclaredAfter.cons
          · exact extended.isDeclared_calledBranch List.lookup_cons_self _ _
          · exact inductionHypothesis (extended.append _) later

/-- The branches of events are those that they report. -/
theorem mem_branches_iff {events : List Event} {finding : BranchFinding} :
    finding ∈ events.filterMap branchOf? ↔ ∃ location, .branch location finding ∈ events := by
  rw [List.mem_filterMap]
  constructor
  · rintro ⟨event, member, is⟩
    cases event with
    | branch location other =>
        obtain rfl : other = finding := Option.some.inj is
        exact ⟨location, member⟩
    | file | tree | note => contradiction
  · rintro ⟨location, member⟩
    exact ⟨.branch location finding, member, rfl⟩

theorem mem_branchesFilledFrom_iff {branches : List BranchFinding}
    {treeName branchName variableName : Text} :
    (treeName, branchName) ∈ branchesFilledFrom branches variableName ↔
      ∃ branch ∈ branches, branch.treeName = treeName ∧ branch.name = branchName ∧
        branch.valueVariable = variableName := by
  simp only [branchesFilledFrom, List.mem_eraseDups, List.mem_map, List.mem_filter,
    decide_eq_true_eq, Prod.mk.injEq]
  constructor
  · rintro ⟨branch, ⟨present, fills⟩, tree, name⟩
    exact ⟨branch, present, tree, name, fills⟩
  · rintro ⟨branch, present, tree, name, fills⟩
    exact ⟨branch, ⟨present, fills⟩, tree, name⟩

/-- A line of code is a note on a branch when the branch's variable is one of its tokens and the line reads as a
note on it. -/
theorem mem_lineNotes_iff {branches : List BranchFinding} {line : Text} {kind : NoteKind}
    {finding : NoteFinding} :
    (kind, finding) ∈ lineNotes branches line ↔
      line.head? ≠ some '#' ∧ finding.valueVariable ∈ lineTokens line ∧
        (finding.treeName, finding.branchName) ∈ branchesFilledFrom branches finding.valueVariable ∧
        isNoteOn kind finding.valueVariable line = true ∧ finding.text = line := by
  rw [lineNotes]
  by_cases code : line.head? = some '#'
  · simp [code]
  · obtain ⟨treeName, branchName, valueVariable, text⟩ := finding
    have every : kind ∈ [NoteKind.comment, .assignment] := by cases kind <;> simp
    rw [if_neg code]
    constructor
    · intro found
      obtain ⟨variableName, token, found⟩ := List.mem_flatMap.mp found
      obtain ⟨names, filled, found⟩ := List.mem_flatMap.mp found
      obtain ⟨other, chosen, same⟩ := List.mem_map.mp found
      cases same
      exact ⟨code, token, filled, (List.mem_filter.mp chosen).2, rfl⟩
    · rintro ⟨-, token, filled, chosen, rfl⟩
      exact List.mem_flatMap.mpr ⟨valueVariable, token, List.mem_flatMap.mpr ⟨_, filled,
        List.mem_map.mpr ⟨kind, List.mem_filter.mpr ⟨every, chosen⟩, rfl⟩⟩⟩

/-- A note event is a note on one of the lines. -/
theorem mem_noteEvents_iff {filename : Text} {branches : List BranchFinding}
    {lines : List (Text × Nat)} {event : Event} :
    event ∈ noteEvents filename branches lines ↔
      ∃ line number kind finding, (line, number) ∈ lines ∧
        (kind, finding) ∈ lineNotes branches (Text.trim line) ∧
        event = .note kind ⟨filename, number⟩ finding := by
  simp only [noteEvents, List.mem_flatMap, List.mem_map, Prod.exists]
  constructor
  · rintro ⟨line, number, inside, kind, finding, found, rfl⟩
    exact ⟨line, number, kind, finding, inside, found, rfl⟩
  · rintro ⟨line, number, kind, finding, inside, found, rfl⟩
    exact ⟨line, number, inside, kind, finding, found, rfl⟩

/-- A note names a branch of the file and the variable that this branch is filled from. -/
theorem exists_of_mem_noteEvents {filename : Text} {branches : List BranchFinding}
    {lines : List (Text × Nat)} {event : Event} (member : event ∈ noteEvents filename branches lines) :
    ∃ kind number finding branch, event = .note kind ⟨filename, number⟩ finding ∧
      branch ∈ branches ∧ branch.treeName = finding.treeName ∧ branch.name = finding.branchName ∧
      branch.valueVariable = finding.valueVariable := by
  obtain ⟨line, number, kind, finding, -, found, same⟩ := mem_noteEvents_iff.mp member
  obtain ⟨-, -, filled, -⟩ := mem_lineNotes_iff.mp found
  obtain ⟨branch, present, names⟩ := mem_branchesFilledFrom_iff.mp filled
  exact ⟨kind, number, finding, branch, same, present, names⟩

/-- Only the variables that fill the branches decide whether the patterns for their notes are built. -/
theorem buildPatterns_eq (branches : List BranchFinding) :
    buildPatterns branches =
      match (branches.map (·.valueVariable)).find? (fun variableName => !hasPatterns variableName) with
      | some variableName => .error (.patternTooBig variableName)
      | none => .ok () := by
  rw [buildPatterns, List.find?_map, Function.comp_def]
  cases branches.find? fun branch => !hasPatterns branch.valueVariable <;> rfl

/-- The names of the trees that a file declares, held by their variables, latest first. -/
def declaredNames (content : Text) : TreeNames :=
  ((declaredTrees (Text.numberedLines content)).map fun (tree, _) =>
    (tree.variableName, tree.name)).reverse

/-- The file and its declared trees, with which a scan begins. -/
def declarationEvents (filename content : Text) : List Event :=
  .file filename :: (declaredTrees (Text.numberedLines content)).map fun (tree, number) =>
    .tree ⟨filename, number⟩ tree

/-- The notes of a file follow its declarations and its branches, once the patterns for them are built. -/
theorem scanSource_eq (filename content : Text) :
    scanSource filename content =
      (branchEvents filename (declaredNames content) (Text.numberedLines content)).bind fun branches =>
        (buildPatterns (branches.filterMap branchOf?)).map fun _ =>
          declarationEvents filename content ++ branches ++
            noteEvents filename (branches.filterMap branchOf?) (Text.numberedLines content) := by
  simp only [scanSource, bind_pure_comp]
  rfl

/-- A scan that succeeds emits its declarations, then its branches, then its notes. -/
theorem exists_of_scanSource {filename content : Text} {events : List Event}
    (scanned : scanSource filename content = .ok events) :
    ∃ branches,
      branchEvents filename (declaredNames content) (Text.numberedLines content) = .ok branches ∧
      events = declarationEvents filename content ++ branches ++
        noteEvents filename (branches.filterMap branchOf?) (Text.numberedLines content) := by
  rw [scanSource_eq] at scanned
  cases called : branchEvents filename (declaredNames content) (Text.numberedLines content) with
  | error fault => simp [called, Except.bind] at scanned
  | ok branches =>
      rw [called] at scanned
      simp only [Except.bind] at scanned
      cases built : buildPatterns (branches.filterMap branchOf?) with
      | error fault => simp [built, Except.map] at scanned
      | ok =>
          rw [built] at scanned
          exact ⟨branches, rfl, (Except.ok.inj scanned).symm⟩

section Scanned

variable {filename content : Text} {events : List Event}

theorem filename_of_mem_declarationEvents {event : Event}
    (member : event ∈ declarationEvents filename content) :
    event.filename = filename ∧ ∀ kind, event.isNote kind = false := by
  rcases List.mem_cons.mp member with rfl | tree
  · exact ⟨rfl, fun _ => rfl⟩
  · obtain ⟨declared, -, rfl⟩ := List.mem_map.mp tree
    exact ⟨rfl, fun _ => rfl⟩

/-- There are no notes among the declarations and the branches. -/
theorem note_not_mem (content : Text) {branches : List Event} {names : TreeNames} {lines : List (Text × Nat)}
    (called : branchEvents filename names lines = .ok branches) (kind : NoteKind)
    (location : Location) (finding : NoteFinding) :
    .note kind location finding ∉ declarationEvents filename content ++ branches := by
  intro member
  rcases List.mem_append.mp member with declaration | branch
  · simpa [Event.isNote] using (filename_of_mem_declarationEvents declaration).2 kind
  · simpa [Event.isNote] using (filename_of_mem_branchEvents called branch).2 kind

/-- The branches of a scan are those of its branch pass. -/
theorem filter_isBranch_scanned (filename content : Text) (branches : List Event)
    (found : List BranchFinding) (lines : List (Text × Nat)) :
    (declarationEvents filename content ++ branches ++ noteEvents filename found lines).filter
      Event.isBranch = branches.filter Event.isBranch := by
  have first : (declarationEvents filename content).filter Event.isBranch = [] := by
    rw [List.filter_eq_nil_iff]
    intro event member
    rcases List.mem_cons.mp member with rfl | tree
    · simp [Event.isBranch]
    · obtain ⟨declared, -, rfl⟩ := List.mem_map.mp tree
      simp [Event.isBranch]
  have last : (noteEvents filename found lines).filter Event.isBranch = [] := by
    rw [List.filter_eq_nil_iff]
    intro event member
    obtain ⟨_, _, _, _, rfl, -⟩ := exists_of_mem_noteEvents member
    simp [Event.isBranch]
  rw [List.filter_append, List.filter_append, first, last, List.append_nil, List.nil_append]

/-- Every event of a scan is recorded under the scanned file name. -/
theorem filename_of_mem_scanSource (scanned : scanSource filename content = .ok events)
    {event : Event} (member : event ∈ events) : event.filename = filename := by
  obtain ⟨branches, called, rfl⟩ := exists_of_scanSource scanned
  rcases List.mem_append.mp member with before | note
  · rcases List.mem_append.mp before with declaration | branch
    · exact (filename_of_mem_declarationEvents declaration).1
    · exact (filename_of_mem_branchEvents called branch).1
  · obtain ⟨kind, number, finding, branch, rfl, -⟩ := exists_of_mem_noteEvents note
    rfl

/-- All declared names belong to trees that are emitted. -/
theorem namesDeclared_declarationEvents (filename content : Text) :
    NamesDeclared filename (declarationEvents filename content) (declaredNames content) := by
  intro variableName treeName held
  obtain ⟨first, second, split, -⟩ := List.lookup_eq_some_iff.mp held
  have member : (variableName, treeName) ∈ declaredNames content := by simp [split]
  obtain ⟨⟨tree, number⟩, declared, same⟩ := List.mem_map.mp (List.mem_reverse.mp member)
  obtain ⟨-, rfl⟩ := Prod.mk.inj same
  apply List.any_eq_true.mpr
  refine ⟨.tree ⟨filename, number⟩ tree, List.mem_cons_of_mem _ (List.mem_map_of_mem declared), ?_⟩
  simp [Event.declaresTreeOf, Event.declaresTree, Event.filename]

theorem declaredAfter_declarationEvents (filename content : Text) :
    DeclaredAfter [] (declarationEvents filename content) := by
  apply DeclaredAfter.of_forall_mem
  intro event member
  rcases List.mem_cons.mp member with rfl | tree
  · rfl
  · obtain ⟨declared, -, rfl⟩ := List.mem_map.mp tree
    rfl

/-- A note refers to the tree of its branch, which the branch comes after. -/
theorem declaredAfter_noteEvents {branches : List Event} {lines : List (Text × Nat)}
    {prior : List Event} (added : DeclaredAfter prior branches)
    (named : ∀ event ∈ branches, event.filename = filename) :
    DeclaredAfter (prior ++ branches)
      (noteEvents filename (branches.filterMap branchOf?) lines) := by
  apply DeclaredAfter.of_forall_mem
  intro event member
  obtain ⟨kind, number, finding, branch, rfl, present, same, -, -⟩ := exists_of_mem_noteEvents member
  obtain ⟨location, inside⟩ := mem_branches_iff.mp present
  obtain ⟨earlier, later, rfl⟩ := List.append_of_mem inside
  have declared := added earlier (.branch location branch) later rfl
  have place : location.filename = filename := named _ inside
  rw [Event.isDeclared_branch, place] at declared
  rw [Event.isDeclared_note, ← same, ← List.append_assoc, List.any_append, declared, Bool.true_or]

/-- In a scan every branch and every note comes after a tree of its name. -/
theorem declaredAfter_scanSource (scanned : scanSource filename content = .ok events) :
    DeclaredAfter [] events := by
  obtain ⟨branches, called, rfl⟩ := exists_of_scanSource scanned
  have added := declaredAfter_branchEvents (namesDeclared_declarationEvents filename content) called
  apply DeclaredAfter.append
  · exact (declaredAfter_declarationEvents filename content).append added
  · exact declaredAfter_noteEvents added fun _ member =>
      (filename_of_mem_branchEvents called member).1

/-- No tree and no branch follows a note. -/
theorem notes_last (scanned : scanSource filename content = .ok events) :
    ∃ declarations notes, events = declarations ++ notes ∧
      (∀ event ∈ declarations, ∀ kind, event.isNote kind = false) ∧
      ∀ event ∈ notes, event.isTree = false ∧ event.isBranch = false := by
  obtain ⟨branches, called, rfl⟩ := exists_of_scanSource scanned
  refine ⟨_, _, rfl, ?_, ?_⟩
  · intro event member
    rcases List.mem_append.mp member with declaration | branch
    · exact (filename_of_mem_declarationEvents declaration).2
    · exact (filename_of_mem_branchEvents called branch).2
  · intro event member
    obtain ⟨kind, number, finding, branch, rfl, -⟩ := exists_of_mem_noteEvents member
    exact ⟨rfl, rfl⟩

end Scanned

end BranchCatalog.Scan
