import BranchCatalog.Proofs.Scan.BranchPass
import BranchCatalog.Proofs.Scan.Insertion
import BranchCatalog.Proofs.Scan.WrittenCall

namespace BranchCatalog.Scan

/-- The first variable that fills a branch of a content and is too long for the patterns of its notes. -/
def oversizedVariable? (content : Text) : Option Text :=
  (valueVariables content).find? fun variableName => 327610 < (Text.encodeUtf8 variableName).length

/-- The branches that events add on a line. -/
def branchesOn (number : Nat) (events : List Event) : List Event :=
  (events.filter Event.isBranch).filter (·.line? = some number)

section Outcome

variable {filename content : Text} {names : TreeNames} {branches : List Event}

/-- A variable is too long for patterns from 327611 bytes on. -/
theorem not_hasPatterns (variableName : Text) :
    (!hasPatterns variableName) = decide (327610 < (Text.encodeUtf8 variableName).length) := by
  rw [Bool.eq_iff_iff, hasPatterns, patternSize, Bool.not_eq_true', decide_eq_false_iff_not,
    decide_eq_true_eq]
  omega

/-- The branches of a pass are filled from the variables of the calls on the lines, in the same order. -/
theorem valueVariable_branches {lines : List (Text × Nat)}
    (scanned : branchEvents filename names lines = .ok branches) :
    (branches.filterMap branchOf?).map (·.valueVariable) =
      ((lines.map Prod.fst).filterMap branchCall?).filterMap fun call =>
        call.arguments?.map (·.valueVariable) := by
  induction lines generalizing names branches with
  | nil =>
      cases scanned
      rfl
  | cons numbered lines inductionHypothesis =>
      rcases branchEvents_cons scanned with
        ⟨uncalled, later⟩ | ⟨call, arguments, rest, called, argued, added⟩
      · simp [uncalled, inductionHypothesis later]
      · rw [List.map_cons, List.filterMap_cons_some called, List.filterMap_cons_some (by rw [argued]; rfl)]
        rcases added with ⟨treeName, -, later, rfl⟩ | ⟨-, later, rfl⟩
        · rw [List.filterMap_cons_some (f := branchOf?) rfl, List.map_cons, inductionHypothesis later]
          rfl
        · rw [List.filterMap_cons_none (f := branchOf?) rfl, List.filterMap_cons_some (f := branchOf?) rfl,
            List.map_cons, inductionHypothesis later]
          rfl

/-- Building the patterns fails with the first variable that is too long. -/
theorem buildPatterns_branches
    (called : branchEvents filename names (Text.numberedLines content) = .ok branches) :
    buildPatterns (branches.filterMap branchOf?) =
      match oversizedVariable? content with
      | some variableName => .error (.patternTooBig variableName)
      | none => .ok () := by
  simp only [buildPatterns_eq, valueVariable_branches called, Text.numberedLines, List.zipIdx_map_fst,
    not_hasPatterns]
  rfl

/-- A scan ends at the first line that it does not recognize. -/
theorem scanSource_of_unrecognized (filename : Text)
    (unrecognized : ∃ number line, HasLine content number line ∧ IsUnrecognized line) :
    ∃ number line, IsFirstLine content IsUnrecognized number line ∧
      scanSource filename content = .error (.unrecognizedBranch ⟨filename, number⟩ (Text.trim line)) := by
  obtain ⟨number, line, stands, unread⟩ := unrecognized
  cases called : branchEvents filename (declaredNames content) (Text.numberedLines content) with
  | ok branches =>
      exact absurd unread (recognized_of_branchEvents called _ (mem_numberedLines_iff.mpr stands))
  | error fault =>
      obtain ⟨earlier, first, place, later, split, unread, none, rfl⟩ := exists_of_branchEvents_error called
      refine ⟨place, first, isFirstLine_of_split split unread none, ?_⟩
      rw [scanSource_eq, called]
      rfl

/-- With every line recognized, the variables alone decide whether a scan succeeds. -/
theorem scanSource_of_recognized (filename : Text)
    (recognized : ∀ number line, HasLine content number line → ¬ IsUnrecognized line) :
    (∀ variableName, oversizedVariable? content = some variableName →
        scanSource filename content = .error (.patternTooBig variableName)) ∧
      (oversizedVariable? content = none →
        ∃ events, scanSource filename content = .ok events ∧ AddsBranches filename content events) := by
  cases called : branchEvents filename (declaredNames content) (Text.numberedLines content) with
  | error fault =>
      obtain ⟨earlier, line, number, later, split, unread, -⟩ := exists_of_branchEvents_error called
      have stands : HasLine content number line := mem_numberedLines_iff.mp (by simp [split])
      exact absurd unread (recognized number line stands)
  | ok branches =>
      have built := buildPatterns_branches called
      constructor
      · intro variableName oversized
        rw [scanSource_eq, called, Except.bind, built, oversized]
        rfl
      · intro fits
        have scanned : ∃ events, scanSource filename content = .ok events := by
          rw [scanSource_eq, called, Except.bind, built, fits]
          exact ⟨_, rfl⟩
        obtain ⟨events, scanned⟩ := scanned
        exact ⟨events, scanned, addsBranches scanned⟩

end Outcome

section Oversized

theorem recognized_text (call : WrittenCall) (lead : Nat) (rest : Text) :
    ¬ IsUnrecognized (spaces lead ++ (call.text ++ rest)) := by
  rw [isUnrecognized_iff, branchCall?_text]
  rintro ⟨_, ⟨⟩, unread⟩
  rw [arguments?_text] at unread
  contradiction

/-- A variable of one character more than a number. -/
def longVariable (count : Nat) : ValueVariable :=
  ⟨List.replicate (count + 1) 'v', by simp, fun char member => by
    rw [List.eq_of_mem_replicate member]
    decide⟩

def denseCall (arguments : WrittenArguments) : WrittenCall :=
  { treeVariable := ⟨['t'], by decide⟩, name := ⟨['b'], by decide⟩, arguments, gap := fun _ => 0 }

/-- A long variable is longer than any given length. -/
theorem lt_length_longVariable (count : Nat) :
    count < (Text.encodeUtf8 (longVariable count).val).length := by
  simp [longVariable, Text.encodeUtf8, String.utf8EncodeChar]

theorem hasLine_alone_iff {line other : Text} (plain : Text.IsPlain line) {number : Nat} :
    HasLine (line ++ ['\n']) number other ↔ number = 1 ∧ other = line := by
  rw [← mem_numberedLines_iff, Text.numberedLines, Text.lines_append plain]
  simp [Text.lines, Text.split, Text.linesOfPieces, and_comm]

theorem valueVariables_alone (call : WrittenCall) (plain : Text.IsPlain call.text) :
    valueVariables (call.text ++ ['\n']) = [(call.arguments.meaning call.name).valueVariable] := by
  have called := branchCall?_text call [] 0
  have argued := arguments?_text (fun place => call.gap (place + 5)) [] call.treeVariable call.name
    call.arguments
  rw [List.append_nil] at called
  change branchCall? call.text = _ at called
  rw [valueVariables, Text.lines_append plain, List.filterMap_cons_some called,
    List.filterMap_cons_some (by rw [argued]; rfl)]
  rfl

/-- A call alone on its line is recognized, and yet a scan fails when the variable of the call is too long. -/
theorem scanSource_of_long_variable (filename : Text) {call : WrittenCall} (plain : Text.IsPlain call.text)
    (long : 327610 < (Text.encodeUtf8 (call.arguments.meaning call.name).valueVariable).length) :
    (∀ number line, HasLine (call.text ++ ['\n']) number line → ¬ IsUnrecognized line) ∧
      scanSource filename (call.text ++ ['\n']) =
        .error (.patternTooBig (call.arguments.meaning call.name).valueVariable) := by
  have recognized : ∀ number line, HasLine (call.text ++ ['\n']) number line → ¬ IsUnrecognized line := by
    intro number line stands
    obtain ⟨-, rfl⟩ := (hasLine_alone_iff plain).mp stands
    have whole := recognized_text call 0 []
    rwa [List.append_nil] at whole
  refine ⟨recognized, (scanSource_of_recognized filename recognized).1 _ ?_⟩
  rw [oversizedVariable?, valueVariables_alone call plain, List.find?_cons_of_pos (by simpa using long)]

end Oversized

section Branches

/-- A scan fails at a branch exactly when a line of the content adds a branch with arguments of no known form,
and its fault then names the first such line and quotes it trimmed. Otherwise it fails exactly when a variable
that fills a branch is too long for the patterns of its notes, and names the first such variable. A scan that
does not fail adds one branch for each call, under the name of the tree that the call's variable holds at the
end of the content or else under the variable's own name, and one untitled tree for each called variable that
holds none, directly before the branch of the first call on it. -/
theorem scanSource_branches (filename content : Text) :
    ((∃ location text, scanSource filename content = .error (.unrecognizedBranch location text)) ↔
      ∃ number line, HasLine content number line ∧ IsUnrecognized line) ∧
    (∀ location text, scanSource filename content = .error (.unrecognizedBranch location text) →
      ∃ number line, IsFirstLine content IsUnrecognized number line ∧ location = ⟨filename, number⟩ ∧
        text = Text.trim line) ∧
    ((∀ number line, HasLine content number line → ¬ IsUnrecognized line) →
      (∀ variableName, oversizedVariable? content = some variableName →
        scanSource filename content = .error (.patternTooBig variableName)) ∧
      (oversizedVariable? content = none →
        ∃ events, scanSource filename content = .ok events ∧ AddsBranches filename content events)) := by
  have failed (location : Location) (text : Text)
      (failed : scanSource filename content = .error (.unrecognizedBranch location text)) :
      ∃ number line, HasLine content number line ∧ IsUnrecognized line := by
    by_contra recognized
    push Not at recognized
    obtain ⟨tooBig, fits⟩ := scanSource_of_recognized filename recognized
    cases found : oversizedVariable? content with
    | some variableName => simp [tooBig variableName found] at failed
    | none =>
        obtain ⟨events, scanned, -⟩ := fits found
        simp [scanned] at failed
  refine ⟨⟨fun ⟨location, text, stopped⟩ => failed location text stopped, ?_⟩, ?_,
    scanSource_of_recognized filename⟩
  · intro unrecognized
    obtain ⟨number, line, -, stopped⟩ := scanSource_of_unrecognized filename unrecognized
    exact ⟨_, _, stopped⟩
  · intro location text stopped
    obtain ⟨number, line, first, named⟩ := scanSource_of_unrecognized filename (failed location text stopped)
    rw [named] at stopped
    cases stopped
    exact ⟨number, line, first, rfl, rfl⟩

/-- A branch goes to the tree that a line below it declares last for its variable, and a variable that holds
no tree gets an untitled one before its first branch only. -/
theorem scanSource_branches_of_later_declaration :
    let content := ("t->Branch(\"b\", &v);\nu->Branch(\"c\", &v);\nt = new TTree(\"x\", \"y\");\n" ++
      "u->Branch(\"d\", &v);\nt = new TTree(\"z\", \"y\");\n").toList
    let events : List Event := [.file ['a'], .tree ⟨['a'], 3⟩ ⟨['x'], ['y'], ['t']⟩,
      .tree ⟨['a'], 5⟩ ⟨['z'], ['y'], ['t']⟩,
      .branch ⟨['a'], 1⟩ ⟨['z'], ['b'], "b (object)".toList, ['v']⟩,
      .tree ⟨['a'], 2⟩ (undeclaredTree ['u']),
      .branch ⟨['a'], 2⟩ ⟨['u'], ['c'], "c (object)".toList, ['v']⟩,
      .branch ⟨['a'], 4⟩ ⟨['u'], ['d'], "d (object)".toList, ['v']⟩]
    scanSource ['a'] content = .ok events ∧ AddsBranches ['a'] content events := by
  intro content events
  have scanned : scanSource ['a'] content = .ok events := by decide +kernel
  have fits : oversizedVariable? content = none := by decide +kernel
  have recognized : ∀ number line, HasLine content number line → ¬ IsUnrecognized line := by
    intro number line stands unread
    obtain ⟨location, text, failed⟩ :=
      (scanSource_branches ['a'] content).1.mpr ⟨number, line, stands, unread⟩
    rw [scanned] at failed
    cases failed
  obtain ⟨others, same, added⟩ := ((scanSource_branches ['a'] content).2.2 recognized).2 fits
  rw [scanned] at same
  cases same
  exact ⟨scanned, added⟩

/-- A content with a single call, of a known form, on which a scan adds no branch. -/
theorem scanSource_fails_of_recognized :
    let call := denseCall (.object true (longVariable 327610))
    (∀ number line, HasLine (call.text ++ ['\n']) number line → ¬ IsUnrecognized line) ∧
      ¬ ∃ events, scanSource ['a'] (call.text ++ ['\n']) = .ok events := by
  have plain (count : Nat) : Text.IsPlain (denseCall (.object true (longVariable count))).text := by
    simp [Text.IsPlain, denseCall, WrittenCall.text, WrittenArguments.text, WrittenArguments.pieces,
      WrittenArguments.closing, Closing.char, referenced, longVariable, spaced, quoted, spaces]
  intro call
  obtain ⟨recognized, failed⟩ := scanSource_of_long_variable ['a'] (plain 327610) (lt_length_longVariable 327610)
  refine ⟨recognized, ?_⟩
  rintro ⟨events, scanned⟩
  rw [failed] at scanned
  cases scanned

end Branches

section Written

variable {filename content line : Text} {number : Nat} {events : List Event}

/-- A line with a call whose arguments are of a known form adds one branch. -/
theorem branchesOn_eq (added : AddsBranches filename content events)
    (stands : HasLine content number line) {call : BranchCall} {arguments : BranchArguments}
    (called : branchCall? line = some call) (argued : call.arguments? = some arguments) :
    branchesOn number events = [.branch ⟨filename, number⟩
      (calledBranch (treeNameOf content call.treeVariable) call arguments)] := by
  -- calls and branches match one to one, so those of a single line do as well
  have sameLine : Relator.LiftFun (IsBranchOf filename (treeNameOf content)) (· ↔ ·)
      (fun numbered => decide (numbered.2 = number)) fun event => decide (event.line? = some number) := by
    rintro numbered event ⟨_, _, -, -, rfl⟩
    simp [Event.line?]
  have matched := List.rel_filter sameLine added.branches
  have calls : ((Text.numberedLines content).filter fun line => (branchCall? line.1).isSome).filter
      (fun numbered => decide (numbered.2 = number)) = [(line, number)] := by
    rw [List.filter_comm, filter_numberedLines stands]
    simp [called]
  rw [calls] at matched
  obtain ⟨event, others, ⟨other, otherArguments, here, meant, rfl⟩, none, found⟩ :=
    List.forall₂_cons_left_iff.mp matched
  obtain rfl : call = other := Option.some.inj (called.symm.trans here)
  obtain rfl : arguments = otherArguments := Option.some.inj (argued.symm.trans meant)
  rw [branchesOn, found, List.forall₂_nil_left_iff.mp none]

/-- On a line that starts with a written call, whatever stands behind it, a scan adds the branch of the call and
no other branch, unless it fails at another line or at a variable that is too long. -/
theorem scanSource_reads_call (filename : Text) (call : WrittenCall) {lead : Nat} {rest : Text}
    (stands : HasLine content number (spaces lead ++ (call.text ++ rest))) :
    (∃ events, scanSource filename content = .ok events ∧ branchesOn number events =
      [.branch ⟨filename, number⟩ (call.branch (treeNameOf content call.treeVariable))]) ∨
    (∃ other line, other ≠ number ∧ IsFirstLine content IsUnrecognized other line ∧
      scanSource filename content = .error (.unrecognizedBranch ⟨filename, other⟩ (Text.trim line))) ∨
    ∃ variableName, oversizedVariable? content = some variableName ∧
      scanSource filename content = .error (.patternTooBig variableName) := by
  by_cases unrecognized : ∃ number line, HasLine content number line ∧ IsUnrecognized line
  · obtain ⟨other, line, first, failed⟩ := scanSource_of_unrecognized filename unrecognized
    refine Or.inr (Or.inl ⟨other, line, ?_, first, failed⟩)
    rintro rfl
    obtain rfl : line = spaces lead ++ (call.text ++ rest) :=
      Option.some.inj (first.stands.2.symm.trans stands.2)
    exact recognized_text call lead rest first.holds
  · push Not at unrecognized
    obtain ⟨tooBig, fits⟩ := scanSource_of_recognized filename unrecognized
    cases found : oversizedVariable? content with
    | some variableName => exact Or.inr (Or.inr ⟨variableName, rfl, tooBig variableName found⟩)
    | none =>
        obtain ⟨events, scanned, added⟩ := fits found
        refine Or.inl ⟨events, scanned, ?_⟩
        exact branchesOn_eq added stands (branchCall?_text call rest lead) (arguments?_text _ rest _ _ _)

/-- A class value with a call in the form of an array behind it. -/
theorem scanSource_reads_call_of_class_value :
    let content := ("t = new TTree(\"x\", \"y\");\n" ++
      "  t->Branch( \"b\", \"C[2]/I\" , &p.v ) ; u->Branch(\"c\", v, \"v[2]/I\");\n").toList
    let call : WrittenCall :=
      { treeVariable := ⟨['t'], by decide⟩
        name := ⟨['b'], by decide⟩
        arguments := .classValue ⟨"C[2]/I".toList, by decide⟩ true ⟨"p.v".toList, by decide⟩ .parenthesis
        gap := fun place => if place = 3 ∨ 5 ≤ place then 1 else 0 }
    let rest := " ; u->Branch(\"c\", v, \"v[2]/I\");".toList
    HasLine content 2 (spaces 2 ++ (call.text ++ rest)) ∧
      ∃ events, scanSource ['a'] content = .ok events ∧ branchesOn 2 events =
        [.branch ⟨['a'], 2⟩ ⟨['x'], ['b'], "b (\"C[2]/I\")".toList, "p.v".toList⟩] := by
  intro content call rest
  have stands : HasLine content 2 (spaces 2 ++ (call.text ++ rest)) := ⟨by decide, by decide +kernel⟩
  have scanned : scanSource ['a'] content = .ok [.file ['a'], .tree ⟨['a'], 1⟩ ⟨['x'], ['y'], ['t']⟩,
      .branch ⟨['a'], 2⟩ ⟨['x'], ['b'], "b (\"C[2]/I\")".toList, "p.v".toList⟩] := by decide +kernel
  rcases scanSource_reads_call ['a'] call stands with added | ⟨_, _, _, _, failed⟩ | ⟨_, _, failed⟩
  · exact ⟨stands, added⟩
  · rw [scanned] at failed
    cases failed
  · rw [scanned] at failed
    cases failed

/-- A line with a single call, of the form of a single value, at which a scan fails. -/
theorem scanSource_reads_no_call_of_long_variable :
    let call := denseCall (.single false (longVariable 327610) ⟨['w'], by decide⟩ ⟨true, none⟩ .parenthesis)
    HasLine (call.text ++ ['\n']) 1 (spaces 0 ++ (call.text ++ [])) ∧
      (∀ other line, HasLine (call.text ++ ['\n']) other line → other = 1) ∧
      ¬ ∃ events, scanSource ['a'] (call.text ++ ['\n']) = .ok events := by
  have plain (count : Nat) : Text.IsPlain (denseCall
      (.single false (longVariable count) ⟨['w'], by decide⟩ ⟨true, none⟩ .parenthesis)).text := by
    simp [Text.IsPlain, denseCall, WrittenCall.text, WrittenArguments.text, WrittenArguments.pieces,
      WrittenArguments.closing, Closing.char, LeafEnd.text, referenced, longVariable, spaced, quoted, spaces]
  intro call
  obtain ⟨-, failed⟩ := scanSource_of_long_variable ['a'] (plain 327610) (lt_length_longVariable 327610)
  refine ⟨(hasLine_alone_iff (plain 327610)).mpr ⟨rfl, List.append_nil _⟩, ?_, ?_⟩
  · intro other line stands
    exact ((hasLine_alone_iff (plain 327610)).mp stands).1
  · rintro ⟨events, scanned⟩
    rw [failed] at scanned
    cases scanned

end Written

end BranchCatalog.Scan
