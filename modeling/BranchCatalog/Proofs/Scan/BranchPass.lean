import BranchCatalog.Proofs.Scan.Order
import Mathlib.Data.List.Induction

namespace BranchCatalog.Scan

/-- A line adds a branch with arguments of none of the four forms. -/
def IsUnrecognized (line : Text) : Prop :=
  ∃ call, branchCall? line = some call ∧ singleValue? call.rest = none ∧
    arrayValue? call.rest = none ∧ classValue? call.name call.rest = none ∧
    objectValue? call.name call.rest = none

/-- A line adds a branch to the tree that a variable holds. -/
def CallsOn (variableName line : Text) : Prop :=
  ∃ call, branchCall? line = some call ∧ call.treeVariable = variableName

/-- The first line of a content for which something holds, with its number. -/
structure IsFirstLine (content : Text) (wanted : Text → Prop) (number : Nat) (line : Text) : Prop where
  stands : HasLine content number line
  holds : wanted line
  first : ∀ other below, HasLine content other below → wanted below → number ≤ other

/-- The tree that a variable holds: the last one that a line of the content declares for it, wherever this
line stands. -/
def heldTree? (content variableName : Text) : Option TreeFinding :=
  (((Text.lines content).filterMap declaredTree?).filter (·.variableName = variableName)).getLast?

/-- The name of the tree that a variable holds, or the variable's own when it holds none. -/
def treeNameOf (content variableName : Text) : Text :=
  ((heldTree? content variableName).map (·.name)).getD variableName

/-- The branch that a numbered line adds, when variables hold trees of some names. -/
def IsBranchOf (filename : Text) (treeNames : Text → Text) (numbered : Text × Nat) (event : Event) : Prop :=
  ∃ call arguments, branchCall? numbered.1 = some call ∧ call.arguments? = some arguments ∧
    event = .branch ⟨filename, numbered.2⟩
      (calledBranch (treeNames call.treeVariable) call arguments)

/-- Events hold no tree of a variable. -/
def HoldNoTreeOf (variableName : Text) (events : List Event) : Prop :=
  ∀ location tree, .tree location tree ∈ events → tree.variableName ≠ variableName

/-- Events hold the untitled tree of a variable directly before a branch that goes to it, on the same line,
and hold no other tree of the variable. -/
def HoldUntitledTreeAt (filename variableName : Text) (number : Nat) (events : List Event) : Prop :=
  ∃ earlier finding later,
    events = earlier ++ .tree ⟨filename, number⟩ (undeclaredTree variableName) ::
      .branch ⟨filename, number⟩ finding :: later ∧
    finding.treeName = variableName ∧ HoldNoTreeOf variableName (earlier ++ later)

namespace HoldNoTreeOf

variable {variableName : Text} {events more : List Event}

theorem nil (variableName : Text) : HoldNoTreeOf variableName [] := by
  simp [HoldNoTreeOf]

/-- Two lists that hold no tree of the variable hold none together. -/
theorem append (first : HoldNoTreeOf variableName events) (second : HoldNoTreeOf variableName more) :
    HoldNoTreeOf variableName (events ++ more) := by
  intro location tree member
  rcases List.mem_append.mp member with before | behind
  · exact first location tree before
  · exact second location tree behind

/-- An event that declares another variable, or none, may be added. -/
theorem cons {event : Event} (rest : HoldNoTreeOf variableName events)
    (apart : ∀ location tree, event = .tree location tree → tree.variableName ≠ variableName) :
    HoldNoTreeOf variableName (event :: events) := by
  intro location tree member
  rcases List.mem_cons.mp member with same | later
  · exact apart location tree same.symm
  · exact rest location tree later

theorem branch (rest : HoldNoTreeOf variableName events) (location : Location) (finding : BranchFinding) :
    HoldNoTreeOf variableName (.branch location finding :: events) :=
  rest.cons nofun

theorem untitled (rest : HoldNoTreeOf variableName events) (location : Location) {other : Text}
    (apart : other ≠ variableName) :
    HoldNoTreeOf variableName (.tree location (undeclaredTree other) :: events) := by
  apply rest.cons
  rintro place tree ⟨⟩
  exact apart

end HoldNoTreeOf

/-- The place of an untitled tree stays among more events that hold no tree of the variable. -/
theorem HoldUntitledTreeAt.between {filename variableName : Text} {number : Nat}
    {before events behind : List Event} (held : HoldUntitledTreeAt filename variableName number events)
    (first : HoldNoTreeOf variableName before) (last : HoldNoTreeOf variableName behind) :
    HoldUntitledTreeAt filename variableName number (before ++ events ++ behind) := by
  obtain ⟨earlier, finding, later, rfl, named, only⟩ := held
  refine ⟨before ++ earlier, finding, later ++ behind, by simp, named, ?_⟩
  have whole := (first.append only).append last
  rwa [List.append_assoc, List.append_assoc, ← List.append_assoc before] at whole

/-- A line is not recognized when it is a call with arguments of no known form. -/
theorem isUnrecognized_iff {line : Text} :
    IsUnrecognized line ↔ ∃ call, branchCall? line = some call ∧ call.arguments? = none := by
  simp only [IsUnrecognized, BranchCall.arguments?, Option.orElse_eq_or, Option.or_eq_none_iff]

section Pass

variable {filename : Text} {names : TreeNames} {lines : List (Text × Nat)} {events : List Event}

/-- The names under which variables hold trees; a variable without a tree has its own name. -/
def heldName (names : TreeNames) (variableName : Text) : Text :=
  (names.lookup variableName).getD variableName

/-- An untitled tree is held under the name that its variable has without it. -/
theorem heldName_cons {variableName : Text} (free : names.lookup variableName = none) :
    heldName ((variableName, variableName) :: names) = heldName names := by
  funext other
  by_cases same : other = variableName
  · subst same
    rw [heldName, heldName, List.lookup_cons_self, free]
    rfl
  · rw [heldName, heldName, List.lookup_cons, beq_false_of_ne same]

/-- A pass that succeeds meets no call that it does not recognize. -/
theorem recognized_of_branchEvents (scanned : branchEvents filename names lines = .ok events) :
    ∀ line ∈ lines, ¬ IsUnrecognized line.1 := by
  induction lines generalizing names events with
  | nil => simp
  | cons numbered lines inductionHypothesis =>
      rcases branchEvents_cons scanned with
        ⟨uncalled, later⟩ | ⟨call, arguments, rest, called, argued, added⟩
      · refine List.forall_mem_cons.mpr ⟨?_, inductionHypothesis later⟩
        simp [isUnrecognized_iff, uncalled]
      · have recognized : ¬ IsUnrecognized numbered.1 := by
          simp [isUnrecognized_iff, called, argued]
        rcases added with ⟨treeName, -, later, -⟩ | ⟨-, later, -⟩ <;>
          exact List.forall_mem_cons.mpr ⟨recognized, inductionHypothesis later⟩

/-- A pass fails at a call that it does not recognize, or else behind its first line. -/
theorem branchEvents_cons_error {line : Text} {number : Nat} {fault : Fault}
    (failed : branchEvents filename names ((line, number) :: lines) = .error fault) :
    (IsUnrecognized line ∧ fault = .unrecognizedBranch ⟨filename, number⟩ (Text.trim line)) ∨
      ¬ IsUnrecognized line ∧ ∃ others, branchEvents filename others lines = .error fault := by
  rw [branchEvents] at failed
  cases called : branchCall? line with
  | none =>
      rw [called] at failed
      exact Or.inr ⟨by simp [isUnrecognized_iff, called], names, failed⟩
  | some call =>
      rw [called] at failed
      simp only at failed
      cases argued : call.arguments? with
      | none =>
          rw [argued, Except.error.injEq] at failed
          exact Or.inl ⟨isUnrecognized_iff.mpr ⟨call, called, argued⟩, failed.symm⟩
      | some arguments =>
          rw [argued] at failed
          refine Or.inr ⟨by simp [isUnrecognized_iff, called, argued], ?_⟩
          cases held : names.lookup call.treeVariable with
          | some treeName =>
              simp only [held] at failed
              exact ⟨names, map_eq_error_iff.mp failed⟩
          | none =>
              simp only [held] at failed
              exact ⟨(call.treeVariable, call.treeVariable) :: names, map_eq_error_iff.mp failed⟩

/-- A pass that fails names the first call that it does not recognize. -/
theorem exists_of_branchEvents_error {fault : Fault}
    (failed : branchEvents filename names lines = .error fault) :
    ∃ earlier line number later, lines = earlier ++ (line, number) :: later ∧ IsUnrecognized line ∧
      (∀ before ∈ earlier, ¬ IsUnrecognized before.1) ∧
      fault = .unrecognizedBranch ⟨filename, number⟩ (Text.trim line) := by
  induction lines generalizing names with
  | nil => contradiction
  | cons numbered lines inductionHypothesis =>
      rcases branchEvents_cons_error failed with ⟨unrecognized, rfl⟩ | ⟨recognized, others, failed⟩
      · exact ⟨[], numbered.1, numbered.2, lines, rfl, unrecognized, by simp, rfl⟩
      · obtain ⟨earlier, line, number, later, rfl, unrecognized, before, rfl⟩ :=
          inductionHypothesis failed
        exact ⟨numbered :: earlier, line, number, later, rfl, unrecognized,
          List.forall_mem_cons.mpr ⟨recognized, before⟩, rfl⟩

/-- The branches of a pass are those of its calls, one for each call. -/
theorem forall₂_branches (scanned : branchEvents filename names lines = .ok events) :
    List.Forall₂ (IsBranchOf filename (heldName names))
      (lines.filter fun line => (branchCall? line.1).isSome) (events.filter Event.isBranch) := by
  induction lines generalizing names events with
  | nil =>
      cases scanned
      exact .nil
  | cons numbered lines inductionHypothesis =>
      rcases branchEvents_cons scanned with
        ⟨uncalled, later⟩ | ⟨call, arguments, rest, called, argued, added⟩
      · rw [List.filter_cons_of_neg (by simp [uncalled])]
        exact inductionHypothesis later
      · rw [List.filter_cons_of_pos (by simp [called])]
        rcases added with ⟨treeName, held, later, rfl⟩ | ⟨free, later, rfl⟩
        · have name : heldName names call.treeVariable = treeName := by simp [heldName, held]
          exact .cons ⟨call, arguments, called, argued, by rw [name]⟩ (inductionHypothesis later)
        · have name : heldName names call.treeVariable = call.treeVariable := by simp [heldName, free]
          have rest := inductionHypothesis later
          rw [heldName_cons free] at rest
          exact .cons ⟨call, arguments, called, argued, by rw [name]⟩ rest

/-- A pass adds no tree of a variable that holds one. -/
theorem holdNoTreeOf_of_held {variableName : Text}
    (scanned : branchEvents filename names lines = .ok events)
    (held : (names.lookup variableName).isSome) : HoldNoTreeOf variableName events := by
  induction lines generalizing names events with
  | nil =>
      cases scanned
      exact .nil variableName
  | cons numbered lines inductionHypothesis =>
      rcases branchEvents_cons scanned with ⟨-, later⟩ | ⟨call, arguments, rest, -, -, added⟩
      · exact inductionHypothesis later held
      · rcases added with ⟨treeName, -, later, rfl⟩ | ⟨free, later, rfl⟩
        · exact (inductionHypothesis later held).branch _ _
        · have apart : variableName ≠ call.treeVariable := by
            rintro rfl
            simp [free] at held
          have still : (List.lookup variableName
              ((call.treeVariable, call.treeVariable) :: names)).isSome := by
            rwa [List.lookup_cons, beq_false_of_ne apart]
          exact ((inductionHypothesis later still).branch _ _).untitled _ apart.symm

/-- A variable that holds no tree gets one before the branch of the first call on it, and only there. -/
theorem exists_untitled (scanned : branchEvents filename names lines = .ok events) {variableName : Text}
    (free : names.lookup variableName = none)
    (used : ∃ line ∈ lines, CallsOn variableName line.1) :
    ∃ before line number after, lines = before ++ (line, number) :: after ∧
      CallsOn variableName line ∧ (∀ other ∈ before, ¬ CallsOn variableName other.1) ∧
      HoldUntitledTreeAt filename variableName number events := by
  -- the first call on the variable is on the first line, or the variable is still without a tree behind it
  induction lines generalizing names events with
  | nil => simp at used
  | cons numbered lines inductionHypothesis =>
      by_cases here : CallsOn variableName numbered.1
      · obtain ⟨call, calls, rfl⟩ := here
        refine ⟨[], numbered.1, numbered.2, lines, rfl, ⟨call, calls, rfl⟩, by simp, ?_⟩
        rcases branchEvents_cons scanned with ⟨uncalled, -⟩ | ⟨other, arguments, rest, called, -, added⟩
        · rw [uncalled] at calls
          contradiction
        · obtain rfl : other = call := Option.some.inj (called.symm.trans calls)
          rcases added with ⟨treeName, held, -, -⟩ | ⟨-, later, rfl⟩
          · rw [free] at held
            contradiction
          · exact ⟨[], _, rest, rfl, rfl, holdNoTreeOf_of_held later (by simp)⟩
      · have used : ∃ line ∈ lines, CallsOn variableName line.1 := by simpa [here] using used
        have behind {others : TreeNames} {rest first : List Event}
            (later : branchEvents filename others lines = .ok rest)
            (free : others.lookup variableName = none) (clear : HoldNoTreeOf variableName first) :
            ∃ before line number after, numbered :: lines = before ++ (line, number) :: after ∧
              CallsOn variableName line ∧ (∀ other ∈ before, ¬ CallsOn variableName other.1) ∧
              HoldUntitledTreeAt filename variableName number (first ++ rest) := by
          obtain ⟨before, line, number, after, rfl, calls, none, held⟩ :=
            inductionHypothesis later free used
          have place := held.between clear (.nil variableName)
          rw [List.append_nil] at place
          exact ⟨numbered :: before, line, number, after, rfl, calls,
            List.forall_mem_cons.mpr ⟨here, none⟩, place⟩
        rcases branchEvents_cons scanned with ⟨-, later⟩ | ⟨call, arguments, rest, called, -, added⟩
        · exact behind later free (.nil variableName)
        · have apart : call.treeVariable ≠ variableName := fun same => here ⟨call, called, same⟩
          have clear := (HoldNoTreeOf.nil variableName).branch ⟨filename, numbered.2⟩
          rcases added with ⟨treeName, -, later, rfl⟩ | ⟨-, later, rfl⟩
          · exact behind later free (clear _)
          · refine behind later ?_ ((clear _).untitled _ apart)
            rwa [List.lookup_cons, beq_false_of_ne apart.symm]

end Pass

section Scanned

variable {filename content : Text} {events : List Event}

/-- The names that a scan starts its branch pass with are those of the held trees. -/
theorem lookup_declaredNames (content variableName : Text) :
    (declaredNames content).lookup variableName = (heldTree? content variableName).map (·.name) := by
  have trees : (declaredTrees (Text.numberedLines content)).map Prod.fst =
      (Text.lines content).filterMap declaredTree? := by
    rw [declaredTrees, List.map_filterMap, ← List.zipIdx_map_fst 1 (Text.lines content),
      List.filterMap_map]
    apply List.filterMap_congr
    rintro ⟨line, number⟩ -
    simp [Function.comp_def]
  have latest (trees : List TreeFinding) :
      (trees.map fun tree => (tree.variableName, tree.name)).reverse.lookup variableName =
        (trees.filter (·.variableName = variableName)).getLast?.map (·.name) := by
    induction trees using List.reverseRecOn with
    | nil => rfl
    | append_singleton trees tree inductionHypothesis =>
        rw [List.map_append, List.reverse_append, List.filter_append]
        by_cases same : variableName = tree.variableName
        · simp [same]
        · rw [List.map_singleton, List.reverse_singleton, List.singleton_append, List.lookup_cons,
            beq_false_of_ne same, inductionHypothesis]
          simp [Ne.symm same]
  rw [heldTree?, ← trees, ← latest, List.map_map]
  rfl

/-- The name that a variable holds is that of its last declaration. -/
theorem heldName_declaredNames (content : Text) :
    heldName (declaredNames content) = treeNameOf content := by
  funext variableName
  rw [heldName, lookup_declaredNames, treeNameOf]

/-- A variable without a name among the declared ones holds no tree. -/
theorem lookup_declaredNames_eq_none_iff {variableName : Text} :
    (declaredNames content).lookup variableName = none ↔ heldTree? content variableName = none := by
  rw [lookup_declaredNames, Option.map_eq_none_iff]

/-- A line behind none for which the same holds is the first. -/
theorem isFirstLine_of_split {wanted : Text → Prop} {earlier later : List (Text × Nat)} {line : Text}
    {number : Nat} (split : Text.numberedLines content = earlier ++ (line, number) :: later)
    (holds : wanted line) (none : ∀ other ∈ earlier, ¬ wanted other.1) :
    IsFirstLine content wanted number line := by
  refine ⟨mem_numberedLines_iff.mp (by simp [split]), holds, ?_⟩
  intro other below stands holds
  have member := mem_numberedLines_iff.mpr stands
  have ascending := pairwise_numberedLines content
  rw [split] at member ascending
  rcases List.mem_append.mp member with before | behind
  · exact absurd holds (none _ before)
  · rcases List.mem_cons.mp behind with same | after
    · cases same
      exact Nat.le_refl number
    · have above := (List.pairwise_cons.mp (List.pairwise_append.mp ascending).2.1).1 _ after
      exact Nat.le_of_lt above

theorem holdNoTreeOf_noteEvents (variableName : Text) (branches : List BranchFinding)
    (lines : List (Text × Nat)) :
    HoldNoTreeOf variableName (noteEvents filename branches lines) := by
  intro location tree member
  obtain ⟨_, _, _, _, same, -⟩ := exists_of_mem_noteEvents member
  cases same

theorem exists_hasLine_iff {line : Text} :
    (∃ number, HasLine content number line) ↔ line ∈ Text.lines content := by
  rw [← List.zipIdx_map_fst 1 (Text.lines content), List.mem_map]
  constructor
  · rintro ⟨number, stands⟩
    exact ⟨(line, number), mem_numberedLines_iff.mpr stands, rfl⟩
  · rintro ⟨⟨line, number⟩, member, rfl⟩
    exact ⟨number, mem_numberedLines_iff.mp member⟩

/-- A variable holds no tree when no line declares one for it. -/
theorem heldTree?_eq_none_iff {variableName : Text} :
    heldTree? content variableName = none ↔ ∀ number line tree, HasLine content number line →
      declaredTree? line = some tree → tree.variableName ≠ variableName := by
  simp only [heldTree?, List.getLast?_eq_none_iff, List.filter_eq_nil_iff, List.mem_filterMap,
    ← exists_hasLine_iff, decide_eq_true_eq]
  constructor
  · intro none number line tree stands declared
    exact none tree ⟨line, ⟨number, stands⟩, declared⟩
  · rintro none tree ⟨line, ⟨number, stands⟩, declared⟩
    exact none number line tree stands declared

theorem declared_of_mem_declarationEvents {location : Location} {tree : TreeFinding}
    (member : .tree location tree ∈ declarationEvents filename content) :
    ∃ line, HasLine content location.line line ∧ declaredTree? line = some tree := by
  rcases List.mem_cons.mp member with same | declared
  · cases same
  · obtain ⟨number, line, finding, stands, declared, same⟩ := mem_declarations_iff.mp declared
    cases same
    exact ⟨line, stands, declared⟩

/-- A variable that no line declares is in no declaration. -/
theorem holdNoTreeOf_declarationEvents {variableName : Text}
    (free : heldTree? content variableName = none) :
    HoldNoTreeOf variableName (declarationEvents filename content) := by
  intro location tree member
  obtain ⟨line, stands, declared⟩ := declared_of_mem_declarationEvents member
  exact heldTree?_eq_none_iff.mp free _ line tree stands declared

/-- What a scan that succeeds makes of the branch calls of a content. -/
structure AddsBranches (filename content : Text) (events : List Event) : Prop where
  recognized : ∀ number line, HasLine content number line → ¬ IsUnrecognized line
  branches : List.Forall₂ (IsBranchOf filename (treeNameOf content))
    ((Text.numberedLines content).filter fun line => (branchCall? line.1).isSome)
    (events.filter Event.isBranch)
  untitled : ∀ variableName, heldTree? content variableName = none →
    (∃ number line, HasLine content number line ∧ CallsOn variableName line) →
    ∃ number line, IsFirstLine content (CallsOn variableName) number line ∧
      HoldUntitledTreeAt filename variableName number events
  trees : ∀ location tree, .tree location tree ∈ events →
    ∃ line, HasLine content location.line line ∧ (declaredTree? line = some tree ∨
      heldTree? content tree.variableName = none ∧ CallsOn tree.variableName line)

/-- A scan that succeeds adds its branches. -/
theorem addsBranches (scanned : scanSource filename content = .ok events) :
    AddsBranches filename content events := by
  obtain ⟨branches, called, whole⟩ := exists_of_scanSource scanned
  constructor
  · intro number line stands
    exact recognized_of_branchEvents called _ (mem_numberedLines_iff.mpr stands)
  · rw [whole, filter_isBranch_scanned, ← heldName_declaredNames]
    exact forall₂_branches called
  · intro variableName free used
    obtain ⟨number, line, stands, calls⟩ := used
    obtain ⟨before, line, number, after, split, calls, none, held⟩ :=
      exists_untitled called (lookup_declaredNames_eq_none_iff.mpr free)
        ⟨(line, number), mem_numberedLines_iff.mpr stands, calls⟩
    refine ⟨number, line, isFirstLine_of_split split calls none, ?_⟩
    rw [whole]
    exact held.between (holdNoTreeOf_declarationEvents free) (holdNoTreeOf_noteEvents _ _ _)
  · intro location tree member
    rw [whole] at member
    rcases List.mem_append.mp member with before | note
    · rcases List.mem_append.mp before with declaration | added
      · obtain ⟨line, stands, declared⟩ := declared_of_mem_declarationEvents declaration
        exact ⟨line, stands, Or.inl declared⟩
      · have free : (declaredNames content).lookup tree.variableName = none := by
          by_contra held
          have none := holdNoTreeOf_of_held called (Option.isSome_iff_ne_none.mpr held)
          exact none location tree added rfl
        obtain ⟨line, inside, found⟩ := isTrueAmong_of_mem_branchEvents called added location.line rfl
        refine ⟨line, mem_numberedLines_iff.mp inside, ?_⟩
        rcases found with declared | ⟨-, -, calls⟩
        · exact Or.inl declared
        · exact Or.inr ⟨lookup_declaredNames_eq_none_iff.mp free, calls⟩
    · exact absurd rfl (holdNoTreeOf_noteEvents tree.variableName _ _ location tree note)

end Scanned

end BranchCatalog.Scan
