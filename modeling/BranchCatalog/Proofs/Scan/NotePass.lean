import BranchCatalog.Proofs.Scan.Order
import BranchCatalog.Proofs.Text.Cut

namespace BranchCatalog.Scan

/-- The two ways to start a comment. -/
def IsCommentMark (mark : Text) : Prop :=
  mark = ['/', '/'] ∨ mark = ['/', '*']

/-- The text behind a variable that makes a line a note on it: it holds a comment mark, or it reaches,
without an equals sign before, an equals sign with another character behind. -/
def FollowsIn : NoteKind → Text → Prop
  | .comment, behind => ∃ mark, IsCommentMark mark ∧ mark <:+: behind
  | .assignment, behind => ∃ gap next rest,
      behind = gap ++ '=' :: next :: rest ∧ '=' ∉ gap ∧ next ≠ '='

/-- A variable occurs in a text, letter by letter, with a note of a kind behind it. -/
def ReadsAsNote (kind : NoteKind) (variableName text : Text) : Prop :=
  ∃ before behind, text = before ++ variableName ++ behind ∧ FollowsIn kind behind

theorem dropStart?_eq_some_iff {start text rest : Text} :
    Text.dropStart? start text = some rest ↔ text = start ++ rest := by
  constructor
  · exact Text.eq_append_of_dropStart?
  · rintro rfl
    exact Text.dropStart?_append start rest

/-- What stands behind an occurrence stands behind it somewhere in the text. -/
theorem mem_afterOccurrences_iff {wanted text behind : Text} :
    behind ∈ afterOccurrences wanted text ↔ ∃ before, text = before ++ wanted ++ behind := by
  induction text with
  | nil =>
      rw [afterOccurrences, Option.mem_toList, dropStart?_eq_some_iff]
      constructor
      · intro here
        exact ⟨[], here⟩
      · rintro ⟨before, found⟩
        simp_all
  | cons char text inductionHypothesis =>
      rw [afterOccurrences, List.mem_append, Option.mem_toList, dropStart?_eq_some_iff,
        inductionHypothesis]
      constructor
      · rintro (here | ⟨before, rfl⟩)
        · exact ⟨[], here⟩
        · exact ⟨char :: before, rfl⟩
      · rintro ⟨before, found⟩
        cases before with
        | nil => exact Or.inl found
        | cons first before =>
            obtain ⟨rfl, rfl⟩ := List.cons.inj found
            exact Or.inr ⟨before, rfl⟩

/-- A comment mark follows at once or after further code. -/
theorem hasCommentMark_iff {text : Text} :
    hasCommentMark text = true ↔ FollowsIn .comment text := by
  simp [hasCommentMark, Text.occursIn_eq_true_iff, FollowsIn, IsCommentMark]

/-- A single equals sign follows, with something behind it. -/
theorem assignsNext_iff {text : Text} : assignsNext text = true ↔ FollowsIn .assignment text := by
  constructor
  · intro assigns
    have whole : text.takeWhile (· != '=') ++ text.dropWhile (· != '=') = text :=
      List.takeWhile_append_dropWhile
    rw [assignsNext] at assigns
    split at assigns
    · next sign next rest found =>
        have stop : sign = '=' := by
          have first := List.head?_dropWhile_not (· != '=') text
          simpa [found] using first
        subst stop
        refine ⟨_, next, rest, (found ▸ whole).symm, ?_, by simpa using assigns⟩
        intro inside
        simpa using List.all_eq_true.mp List.all_takeWhile '=' inside
    · contradiction
  · rintro ⟨gap, next, rest, rfl, clear, different⟩
    have apart : ∀ char ∈ gap, (char != '=') = true := by
      intro char inside
      rw [bne_iff_ne]
      rintro rfl
      exact clear inside
    rw [assignsNext, List.dropWhile_append_of_pos apart]
    simpa using different

/-- A test of what follows holds when it holds behind one of the occurrences. -/
theorem any_afterOccurrences_iff {variableName line : Text} {test : Text → Bool} {follows : Text → Prop}
    (same : ∀ behind, test behind = true ↔ follows behind) :
    (afterOccurrences variableName line).any test = true ↔
      ∃ before behind, line = before ++ variableName ++ behind ∧ follows behind := by
  rw [List.any_eq_true]
  constructor
  · rintro ⟨behind, member, note⟩
    obtain ⟨before, found⟩ := mem_afterOccurrences_iff.mp member
    exact ⟨before, behind, found, (same behind).mp note⟩
  · rintro ⟨before, behind, found, note⟩
    exact ⟨behind, mem_afterOccurrences_iff.mpr ⟨before, found⟩, (same behind).mpr note⟩

/-- A line is a note on a variable when it reads as one. -/
theorem isNoteOn_iff {kind : NoteKind} {variableName line : Text} :
    isNoteOn kind variableName line = true ↔ ReadsAsNote kind variableName line := by
  cases kind with
  | comment => exact any_afterOccurrences_iff fun _ => hasCommentMark_iff
  | assignment => exact any_afterOccurrences_iff fun _ => assignsNext_iff

section Once

theorem nodup_eraseDups {Item : Type} [BEq Item] [LawfulBEq Item] :
    ∀ items : List Item, items.eraseDups.Nodup
  | [] => by simp
  | item :: items => by
      rw [List.eraseDups_cons, List.nodup_cons]
      exact ⟨by simp [List.mem_eraseDups], nodup_eraseDups _⟩
termination_by items => items.length
decreasing_by exact Nat.lt_succ_of_le (List.length_filter_le _ items)

/-- The notes on a line differ in their kind, their branch or their variable. -/
theorem nodup_lineNotes (branches : List BranchFinding) (line : Text) :
    (lineNotes branches line).Nodup := by
  rw [lineNotes]
  split
  · exact .nil
  · refine List.nodup_flatMap.mpr ⟨fun variableName _ => List.nodup_flatMap.mpr ⟨fun branch _ => ?_, ?_⟩, ?_⟩
    · have kinds : [NoteKind.comment, .assignment].Nodup := by decide
      apply (kinds.filter _).map
      intro kind other same
      exact (Prod.mk.inj same).1
    · apply (nodup_eraseDups _).imp
      intro branch other different note here there
      obtain ⟨_, -, rfl⟩ := List.mem_map.mp here
      obtain ⟨_, -, same⟩ := List.mem_map.mp there
      simp only [Prod.mk.injEq, NoteFinding.mk.injEq] at same
      exact different (Prod.ext same.2.1.symm same.2.2.1.symm)
    · apply (nodup_eraseDups _).imp
      intro variableName other different note here there
      obtain ⟨_, -, here⟩ := List.mem_flatMap.mp here
      obtain ⟨_, -, rfl⟩ := List.mem_map.mp here
      obtain ⟨_, -, there⟩ := List.mem_flatMap.mp there
      obtain ⟨_, -, same⟩ := List.mem_map.mp there
      simp only [Prod.mk.injEq, NoteFinding.mk.injEq] at same
      exact different same.2.2.2.1.symm

/-- The notes of different lines differ in their line number. -/
theorem nodup_noteEvents (filename : Text) (branches : List BranchFinding) {lines : List (Text × Nat)}
    (ascending : lines.Pairwise fun first second => first.2 < second.2) :
    (noteEvents filename branches lines).Nodup := by
  refine List.nodup_flatMap.mpr ⟨fun line _ => ?_, ?_⟩
  · apply (nodup_lineNotes branches (Text.trim line.1)).map
    intro note other same
    exact Prod.ext (Event.note.inj same).1 (Event.note.inj same).2.2
  · apply ascending.imp
    intro line below before event here there
    obtain ⟨_, -, rfl⟩ := List.mem_map.mp here
    obtain ⟨_, -, same⟩ := List.mem_map.mp there
    simp only [Event.note.injEq, Location.mk.injEq] at same
    exact absurd same.2.1.2 (Nat.ne_of_gt before)

end Once

section Scanned

variable {filename content : Text} {events : List Event}

/-- A note stands in a content of some events when its text is a trimmed line of code of the content, at the
line's number, its names are those of a branch among the events, and its variable is a token of the line,
which reads as a note on it. -/
structure IsNoteOf (filename content : Text) (events : List Event) (kind : NoteKind)
    (location : Location) (finding : NoteFinding) : Prop where
  file : location.filename = filename
  line : ∃ line, HasLine content location.line line ∧ Text.trim line = finding.text
  code : finding.text.head? ≠ some '#'
  branch : ∃ place branch, .branch place branch ∈ events ∧ branch.treeName = finding.treeName ∧
    branch.name = finding.branchName ∧ branch.valueVariable = finding.valueVariable
  token : finding.valueVariable ∈ lineTokens finding.text
  reads : ReadsAsNote kind finding.valueVariable finding.text

/-- The note events are exactly the notes of the branches. -/
theorem mem_noteEvents_iff_isNoteOf {branches : List Event} {kind : NoteKind} {location : Location}
    {finding : NoteFinding} :
    .note kind location finding ∈
        noteEvents filename (branches.filterMap branchOf?) (Text.numberedLines content) ↔
      IsNoteOf filename content branches kind location finding := by
  rw [mem_noteEvents_iff]
  constructor
  · rintro ⟨line, number, other, found, inside, note, same⟩
    cases same
    obtain ⟨code, token, filled, reads, text⟩ := mem_lineNotes_iff.mp note
    obtain ⟨branch, present, names⟩ := mem_branchesFilledFrom_iff.mp filled
    obtain ⟨place, added⟩ := mem_branches_iff.mp present
    rw [← text] at code token reads
    exact ⟨rfl, ⟨line, mem_numberedLines_iff.mp inside, text.symm⟩, code, ⟨place, branch, added, names⟩,
      token, isNoteOn_iff.mp reads⟩
  · rintro ⟨rfl, ⟨line, stands, text⟩, code, ⟨place, branch, added, names⟩, token, reads⟩
    refine ⟨line, location.line, kind, finding, mem_numberedLines_iff.mpr stands, ?_, rfl⟩
    rw [text]
    exact mem_lineNotes_iff.mpr ⟨code, token, mem_branchesFilledFrom_iff.mpr
      ⟨branch, mem_branches_iff.mpr ⟨place, added⟩, names⟩, isNoteOn_iff.mpr reads, rfl⟩

/-- The notes of a scan are about the branches of its branch pass. -/
theorem isNoteOf_iff {branches : List Event} {found : List BranchFinding} {lines : List (Text × Nat)}
    {kind : NoteKind} {location : Location} {finding : NoteFinding} :
    IsNoteOf filename content (declarationEvents filename content ++ branches ++
        noteEvents filename found lines) kind location finding ↔
      IsNoteOf filename content branches kind location finding := by
  have same {place : Location} {branch : BranchFinding} :
      .branch place branch ∈ declarationEvents filename content ++ branches ++
        noteEvents filename found lines ↔ .branch place branch ∈ branches := by
    have filtered := congrArg (.branch place branch ∈ ·)
      (filter_isBranch_scanned filename content branches found lines)
    simpa [Event.isBranch] using filtered
  constructor
  · rintro ⟨file, line, code, ⟨place, branch, added, names⟩, token, reads⟩
    exact ⟨file, line, code, ⟨place, branch, same.mp added, names⟩, token, reads⟩
  · rintro ⟨file, line, code, ⟨place, branch, added, names⟩, token, reads⟩
    exact ⟨file, line, code, ⟨place, branch, same.mpr added, names⟩, token, reads⟩

/-- The notes of a scan are those of its content. -/
theorem mem_note_iff (scanned : scanSource filename content = .ok events) {kind : NoteKind}
    {location : Location} {finding : NoteFinding} :
    .note kind location finding ∈ events ↔
      IsNoteOf filename content events kind location finding := by
  obtain ⟨branches, called, rfl⟩ := exists_of_scanSource scanned
  have absent := note_not_mem content called kind location finding
  rw [isNoteOf_iff, ← mem_noteEvents_iff_isNoteOf, List.mem_append, or_iff_right absent]

/-- A scan gives no note twice. -/
theorem count_note_le_one (scanned : scanSource filename content = .ok events) (kind : NoteKind)
    (location : Location) (finding : NoteFinding) :
    events.count (.note kind location finding) ≤ 1 := by
  obtain ⟨branches, called, rfl⟩ := exists_of_scanSource scanned
  have absent := note_not_mem content called kind location finding
  have once := nodup_noteEvents filename (branches.filterMap branchOf?) (pairwise_numberedLines content)
  rw [List.count_append, List.count_eq_zero.mpr absent, Nat.zero_add]
  exact List.nodup_iff_count_le_one.mp once _

/-- A scan has at most one note of a kind for a line, a branch and its variable, and it has one exactly when
this is a note of the content. -/
theorem scanSource_notes (scanned : scanSource filename content = .ok events) (kind : NoteKind)
    (location : Location) (finding : NoteFinding) :
    events.count (.note kind location finding) ≤ 1 ∧
      (events.count (.note kind location finding) = 1 ↔
        IsNoteOf filename content events kind location finding) := by
  have once := count_note_le_one scanned kind location finding
  refine ⟨once, ?_⟩
  rw [← mem_note_iff scanned, ← List.count_pos_iff]
  omega

/-- A variable that fills two branches, one of them added twice, gives each branch one comment and one
assignment, and the dot in its name stands for a dot only. -/
theorem scanSource_notes_of_dotted_variable :
    let content := ("t->Branch(\"b\", &p.x);\nt->Branch(\"b\", &p.x);\nu->Branch(\"c\", &p.x);\n" ++
      "pyx = p.x; // p.x\np.x = p.x;\n#define p.x = 1 // p.x\n").toList
    let comment (treeName branchName : Text) : Event :=
      .note .comment ⟨['a'], 4⟩ ⟨treeName, branchName, ['p', '.', 'x'], "pyx = p.x; // p.x".toList⟩
    let assignment (treeName branchName : Text) : Event :=
      .note .assignment ⟨['a'], 5⟩ ⟨treeName, branchName, ['p', '.', 'x'], "p.x = p.x;".toList⟩
    let events : List Event := [.file ['a'], .tree ⟨['a'], 1⟩ (undeclaredTree ['t']),
      .branch ⟨['a'], 1⟩ ⟨['t'], ['b'], "b (object)".toList, ['p', '.', 'x']⟩,
      .branch ⟨['a'], 2⟩ ⟨['t'], ['b'], "b (object)".toList, ['p', '.', 'x']⟩,
      .tree ⟨['a'], 3⟩ (undeclaredTree ['u']),
      .branch ⟨['a'], 3⟩ ⟨['u'], ['c'], "c (object)".toList, ['p', '.', 'x']⟩,
      comment ['t'] ['b'], comment ['u'] ['c'], assignment ['t'] ['b'], assignment ['u'] ['c']]
    scanSource ['a'] content = .ok events ∧
      IsNoteOf ['a'] content events .comment ⟨['a'], 4⟩
        ⟨['u'], ['c'], ['p', '.', 'x'], "pyx = p.x; // p.x".toList⟩ ∧
      ¬ IsNoteOf ['a'] content events .assignment ⟨['a'], 4⟩
        ⟨['u'], ['c'], ['p', '.', 'x'], "pyx = p.x; // p.x".toList⟩ := by
  intro content comment assignment events
  have scanned : scanSource ['a'] content = .ok events := by decide +kernel
  have notes (kind : NoteKind) := (scanSource_notes scanned kind ⟨['a'], 4⟩
    ⟨['u'], ['c'], ['p', '.', 'x'], "pyx = p.x; // p.x".toList⟩).2
  exact ⟨scanned, (notes .comment).mp (by decide +kernel),
    fun note => absurd ((notes .assignment).mpr note) (by decide +kernel)⟩

end Scanned

end BranchCatalog.Scan
