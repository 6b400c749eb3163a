import BranchCatalog.Proofs.Scan.Origin

namespace BranchCatalog

/-- The numbers of the lines that events name. -/
def lineNumbers (events : List Event) : List Nat :=
  events.filterMap Event.line?

/-- The earlier events hold what an event refers to: a tree of a branch's tree name, and a branch with all
the names of a note. -/
def Event.RefersBackTo (earlier : List Event) : Event → Prop
  | .file _ | .tree _ _ => True
  | .branch _ finding => ∃ location tree, .tree location tree ∈ earlier ∧ tree.name = finding.treeName
  | .note _ _ finding => ∃ location branch, .branch location branch ∈ earlier ∧
      branch.treeName = finding.treeName ∧ branch.name = finding.branchName ∧
      branch.valueVariable = finding.valueVariable

namespace Scan

/-- Branches on lines beyond a number, in the order of their lines. A tree that no line declares stands
directly before its branch, on the line of the branch. -/
inductive AddedAfter (filename : Text) : Nat → List Event → Prop where
  | nil {number : Nat} : AddedAfter filename number []
  | branch {number line : Nat} {finding : BranchFinding} {events : List Event}
      (beyond : number < line) (rest : AddedAfter filename line events) :
      AddedAfter filename number (.branch ⟨filename, line⟩ finding :: events)
  | undeclared {number line : Nat} (finding : BranchFinding) {events : List Event}
      (beyond : number < line) (rest : AddedAfter filename line events) :
      AddedAfter filename number (.tree ⟨filename, line⟩ (undeclaredTree finding.treeName) ::
        .branch ⟨filename, line⟩ finding :: events)

/-- The branch pass goes along its lines. -/
theorem addedAfter_branchEvents {filename : Text} {names : TreeNames} {lines : List (Text × Nat)}
    {events : List Event} (ascending : lines.Pairwise fun first second => first.2 < second.2)
    (scanned : branchEvents filename names lines = .ok events) {number : Nat}
    (beyond : ∀ line ∈ lines, number < line.2) : AddedAfter filename number events := by
  induction lines generalizing names events number with
  | nil =>
      cases scanned
      exact .nil
  | cons numbered lines inductionHypothesis =>
      obtain ⟨below, ascending⟩ := List.pairwise_cons.mp ascending
      have here : number < numbered.2 := beyond numbered List.mem_cons_self
      rcases branchEvents_cons scanned with ⟨-, later⟩ | ⟨call, arguments, rest, -, -, added⟩
      · exact inductionHypothesis ascending later fun line member =>
          beyond line (List.mem_cons_of_mem numbered member)
      · rcases added with ⟨treeName, -, later, rfl⟩ | ⟨-, later, rfl⟩
        · exact .branch here (inductionHypothesis ascending later below)
        · exact .undeclared (calledBranch call.treeVariable call arguments) here
            (inductionHypothesis ascending later below)

namespace AddedAfter

variable {filename : Text} {number : Nat} {events : List Event}

/-- Branches stand behind the lines before them. -/
theorem lt_of_mem_lineNumbers (added : AddedAfter filename number events) :
    ∀ line ∈ lineNumbers events, number < line := by
  induction added with
  | nil => simp [lineNumbers]
  | branch beyond _ inductionHypothesis =>
      intro line member
      rcases List.mem_cons.mp member with rfl | later
      · exact beyond
      · exact Nat.lt_trans beyond (inductionHypothesis line later)
  | undeclared _ beyond _ inductionHypothesis =>
      intro line member
      rcases List.mem_cons.mp member with rfl | member
      · exact beyond
      · rcases List.mem_cons.mp member with rfl | later
        · exact beyond
        · exact Nat.lt_trans beyond (inductionHypothesis line later)

theorem pairwise_branches (added : AddedAfter filename number events) :
    (lineNumbers (events.filter Event.isBranch)).Pairwise (· < ·) := by
  have inside (events : List Event) :
      lineNumbers (events.filter Event.isBranch) ⊆ lineNumbers events :=
    (List.filter_sublist.filterMap _).subset
  induction added with
  | nil => exact .nil
  | branch _ rest inductionHypothesis | undeclared _ _ rest inductionHypothesis =>
      exact .cons (fun line member => rest.lt_of_mem_lineNumbers line (inside _ member))
        inductionHypothesis

theorem isTree_or_isBranch (added : AddedAfter filename number events) :
    ∀ event ∈ events, event.isTree = true ∨ event.isBranch = true := by
  induction added with
  | nil => simp
  | branch _ _ inductionHypothesis => exact List.forall_mem_cons.mpr ⟨.inr rfl, inductionHypothesis⟩
  | undeclared _ _ _ inductionHypothesis =>
      refine List.forall_mem_cons.mpr ⟨.inl rfl, ?_⟩
      exact List.forall_mem_cons.mpr ⟨.inr rfl, inductionHypothesis⟩

/-- A tree among the branches is the one of the branch behind it. -/
theorem exists_branch_of_tree (added : AddedAfter filename number events) {earlier later : List Event}
    {location : Location} {tree : TreeFinding}
    (split : events = earlier ++ .tree location tree :: later) :
    ∃ finding rest, later = .branch location finding :: rest ∧
      tree = undeclaredTree finding.treeName := by
  induction added generalizing earlier with
  | nil => exact absurd split (by simp)
  | branch _ _ inductionHypothesis =>
      cases earlier with
      | nil => exact absurd split (by simp)
      | cons first earlier => exact inductionHypothesis (List.cons.inj split).2
  | undeclared _ _ _ inductionHypothesis =>
      match earlier, split with
      | [], split =>
          cases split
          exact ⟨_, _, rfl, rfl⟩
      | [first], split => exact absurd split (by simp)
      | first :: second :: earlier, split =>
          exact inductionHypothesis (List.cons.inj (List.cons.inj split).2).2

end AddedAfter

section Passes

variable {filename : Text} {lines : List (Text × Nat)}

theorem pairwise_numberedLines (content : Text) :
    (Text.numberedLines content).Pairwise fun first second => first.2 < second.2 := by
  rw [← List.pairwise_map (f := Prod.snd), Text.numberedLines, List.zipIdx_map_snd]
  exact List.pairwise_lt_range'

/-- A line is the only one under its number. -/
theorem filter_numberedLines {content line : Text} {number : Nat} (stands : HasLine content number line) :
    (Text.numberedLines content).filter (·.2 = number) = [(line, number)] := by
  obtain ⟨before, behind, split⟩ := List.append_of_mem (mem_numberedLines_iff.mpr stands)
  have ascending := pairwise_numberedLines content
  rw [split, List.pairwise_append] at ascending
  obtain ⟨-, behindAscends, beforeAscends⟩ := ascending
  have noneBefore : before.filter (·.2 = number) = [] := by
    rw [List.filter_eq_nil_iff]
    intro other member
    have below := beforeAscends other member (line, number) List.mem_cons_self
    simp only [decide_eq_true_eq]
    omega
  have noneBehind : behind.filter (·.2 = number) = [] := by
    rw [List.filter_eq_nil_iff]
    intro other member
    have beyond := (List.pairwise_cons.mp behindAscends).1 other member
    simp only [decide_eq_true_eq]
    omega
  rw [split, List.filter_append, noneBefore, List.filter_cons_of_pos (by simp), noneBehind,
    List.nil_append]

/-- The declared trees come in the order of their lines, each of which declares at most one. -/
theorem pairwise_declarations
    (ascending : lines.Pairwise fun first second => first.2 < second.2) :
    (lineNumbers ((declaredTrees lines).map fun (tree, number) =>
      Event.tree ⟨filename, number⟩ tree)).Pairwise (· < ·) := by
  have numbers (trees : List (TreeFinding × Nat)) :
      lineNumbers (trees.map fun (tree, number) => Event.tree ⟨filename, number⟩ tree) =
        trees.map Prod.snd := by
    rw [lineNumbers, List.filterMap_map]
    exact congrFun List.filterMap_eq_map trees
  rw [numbers, List.pairwise_map, declaredTrees, List.pairwise_filterMap]
  apply ascending.imp
  intro line below before first found second foundBelow
  obtain ⟨tree, -, rfl⟩ := Option.map_eq_some_iff.mp found
  obtain ⟨treeBelow, -, rfl⟩ := Option.map_eq_some_iff.mp foundBelow
  exact before

/-- The notes come in the order of their lines, each of which can have several. -/
theorem pairwise_noteEvents (branches : List BranchFinding)
    (ascending : lines.Pairwise fun first second => first.2 < second.2) :
    (lineNumbers (noteEvents filename branches lines)).Pairwise (· ≤ ·) := by
  have numbered (line : Text × Nat) : ∀ event ∈ (lineNotes branches (Text.trim line.1)).map
      (fun note => Event.note note.1 ⟨filename, line.2⟩ note.2), event.line? = some line.2 := by
    intro event member
    obtain ⟨note, -, rfl⟩ := List.mem_map.mp member
    rfl
  rw [lineNumbers, List.pairwise_filterMap, noteEvents, List.pairwise_flatMap]
  constructor
  · intro line _
    apply List.pairwise_of_forall_mem_list
    intro first member second memberBelow number found below foundBelow
    rw [numbered line first member] at found
    rw [numbered line second memberBelow] at foundBelow
    cases found
    cases foundBelow
    exact Nat.le_refl line.2
  · apply ascending.imp
    intro line below before first member second memberBelow number found numberBelow foundBelow
    rw [numbered line first member] at found
    rw [numbered below second memberBelow] at foundBelow
    cases found
    cases foundBelow
    exact Nat.le_of_lt before

end Passes

section Scanned

variable {filename content : Text} {events : List Event}

/-- The parts of a scan behind its file, each in the order of its lines. -/
structure InLineOrder (filename content : Text) (declarations calls notes : List Event) : Prop where
  declared : ∀ event, event ∈ declarations ↔ ∃ number line finding, HasLine content number line ∧
    declaredTree? line = some finding ∧ event = .tree ⟨filename, number⟩ finding
  declarationsAscend : (lineNumbers declarations).Pairwise (· < ·)
  called : ∀ event ∈ calls, event.isTree = true ∨ event.isBranch = true
  branchesAscend : (lineNumbers (calls.filter Event.isBranch)).Pairwise (· < ·)
  undeclaredBeforeBranch : ∀ earlier location tree later,
    calls = earlier ++ .tree location tree :: later → ∃ finding rest,
      later = .branch location finding :: rest ∧ tree = undeclaredTree finding.treeName
  noted : ∀ event ∈ notes, ∃ kind, event.isNote kind = true
  notesAscend : (lineNumbers notes).Pairwise (· ≤ ·)

theorem mem_declarations_iff {event : Event} :
    event ∈ ((declaredTrees (Text.numberedLines content)).map fun (tree, number) =>
      Event.tree ⟨filename, number⟩ tree) ↔ ∃ number line finding, HasLine content number line ∧
        declaredTree? line = some finding ∧ event = .tree ⟨filename, number⟩ finding := by
  constructor
  · intro member
    obtain ⟨⟨finding, number⟩, declared, rfl⟩ := List.mem_map.mp member
    obtain ⟨⟨line, place⟩, inside, found⟩ := List.mem_filterMap.mp declared
    obtain ⟨other, here, same⟩ := Option.map_eq_some_iff.mp found
    cases same
    exact ⟨number, line, finding, mem_numberedLines_iff.mp inside, here, rfl⟩
  · rintro ⟨number, line, finding, stands, here, rfl⟩
    refine List.mem_map.mpr ⟨(finding, number), List.mem_filterMap.mpr ⟨(line, number), ?_, ?_⟩, rfl⟩
    · exact mem_numberedLines_iff.mpr stands
    · simp [here]

/-- What a scan emits stands in the order of the lines, part by part. -/
theorem exists_inLineOrder (scanned : scanSource filename content = .ok events) :
    ∃ declarations calls notes, events = .file filename :: (declarations ++ calls ++ notes) ∧
      InLineOrder filename content declarations calls notes := by
  obtain ⟨branches, called, rfl⟩ := exists_of_scanSource scanned
  have ascending := pairwise_numberedLines content
  have added : AddedAfter filename 0 branches := addedAfter_branchEvents ascending called
    fun line member => (mem_numberedLines_iff.mp member).1
  refine ⟨_, branches, _, rfl, ⟨fun event => mem_declarations_iff, pairwise_declarations ascending,
    added.isTree_or_isBranch, added.pairwise_branches, fun _ _ _ _ => added.exists_branch_of_tree,
    ?_, pairwise_noteEvents _ ascending⟩⟩
  intro event member
  obtain ⟨kind, number, finding, branch, rfl, -⟩ := exists_of_mem_noteEvents member
  exact ⟨kind, by simp [Event.isNote]⟩

/-- The parts of a scan hold no file. -/
theorem InLineOrder.file_not_mem {declarations calls notes : List Event}
    (ordered : InLineOrder filename content declarations calls notes) (other : Text) :
    .file other ∉ declarations ++ calls ++ notes := by
  intro member
  rcases List.mem_append.mp member with before | noted
  · rcases List.mem_append.mp before with declared | called
    · obtain ⟨_, _, _, -, -, same⟩ := (ordered.declared _).mp declared
      contradiction
    · simpa [Event.isTree, Event.isBranch] using ordered.called _ called
  · obtain ⟨kind, is⟩ := ordered.noted _ noted
    contradiction

/-- Each event of a scan refers to events before it. -/
theorem refersBackTo_of_split (scanned : scanSource filename content = .ok events)
    {earlier later : List Event} {event : Event} (split : events = earlier ++ event :: later) :
    event.RefersBackTo earlier := by
  cases event with
  | file | tree => trivial
  | branch location finding =>
      have declared := declaredAfter_scanSource scanned earlier _ later split
      rw [List.nil_append, Event.isDeclared_branch] at declared
      obtain ⟨event, member, declares⟩ := List.any_eq_true.mp declared
      cases event with
      | tree place tree =>
          rw [Event.declaresTreeOf, Bool.and_eq_true] at declares
          exact ⟨place, tree, member, of_decide_eq_true declares.1⟩
      | file | branch | note => contradiction
  | note kind location finding =>
      obtain ⟨branches, called, rfl⟩ := exists_of_scanSource scanned
      rcases split_of_append split with ⟨rest, before, -⟩ | ⟨rest, rfl, notes⟩
      · exact absurd (before ▸ List.mem_append_right _ List.mem_cons_self)
          (note_not_mem content called kind location finding)
      · have member : .note kind location finding ∈
            noteEvents filename (branches.filterMap branchOf?) (Text.numberedLines content) := by
          simp [notes]
        obtain ⟨_, _, _, branch, same, present, names⟩ := exists_of_mem_noteEvents member
        cases same
        obtain ⟨place, inside⟩ := mem_branches_iff.mp present
        exact ⟨place, branch, by simp [inside], names⟩

/-- A scan that succeeds emits its file and no other, then the declared trees, then the branches with the trees
that no line declares, and then the notes, each part in the order of its lines. Every event comes after those
that it refers to, and names the scanned file and one of its lines. -/
theorem scanSource_in_order (scanned : scanSource filename content = .ok events) :
    (∃ declarations calls notes, events = .file filename :: (declarations ++ calls ++ notes) ∧
      (∀ other, .file other ∉ declarations ++ calls ++ notes) ∧
      InLineOrder filename content declarations calls notes) ∧
    (∀ earlier event later, events = earlier ++ event :: later → event.RefersBackTo earlier) ∧
    ∀ event ∈ events, event.filename = filename ∧ ∀ number, event.line? = some number →
      1 ≤ number ∧ number ≤ (Text.lines content).length := by
  refine ⟨?_, fun _ _ _ => refersBackTo_of_split scanned, ?_⟩
  · obtain ⟨declarations, calls, notes, whole, ordered⟩ := exists_inLineOrder scanned
    exact ⟨declarations, calls, notes, whole, ordered.file_not_mem, ordered⟩
  · intro event member
    refine ⟨filename_of_mem_scanSource scanned member, fun number named => ?_⟩
    obtain ⟨line, inside, -⟩ := isTrueAmong_of_mem_scanSource scanned member number named
    have stands := mem_numberedLines_iff.mp inside
    exact ⟨stands.1, stands.le_length⟩

/-- A note on the first line is emitted after the tree of the second line and after the branch of the third
line, which no line declares a tree for. -/
theorem scanSource_in_order_of_undeclared_tree :
    let content := "v = 0;\nt = new TTree(\"x\", \"y\");\nu->Branch(\"b\", &v, \"b/I\");\n".toList
    let tree : Event := .tree ⟨['a'], 2⟩ ⟨['x'], ['y'], ['t']⟩
    let undeclared : Event := .tree ⟨['a'], 3⟩ (undeclaredTree ['u'])
    let branch : Event := .branch ⟨['a'], 3⟩ ⟨['u'], ['b'], ['b', '/', 'I'], ['v']⟩
    let note : Event := .note .assignment ⟨['a'], 1⟩ ⟨['u'], ['b'], ['v'], "v = 0;".toList⟩
    scanSource ['a'] content = .ok [.file ['a'], tree, undeclared, branch, note] ∧
      branch.RefersBackTo [.file ['a'], tree, undeclared] ∧
      note.RefersBackTo [.file ['a'], tree, undeclared, branch] := by
  intro content tree undeclared branch note
  have scanned : scanSource ['a'] content = .ok [.file ['a'], tree, undeclared, branch, note] := by
    decide +kernel
  have refers := (scanSource_in_order scanned).2.1
  exact ⟨scanned, refers [.file ['a'], tree, undeclared] branch [note] rfl,
    refers [.file ['a'], tree, undeclared, branch] note [] rfl⟩

end Scanned

end Scan

end BranchCatalog
