import BranchCatalog.Proofs.Scan.BranchPass
import BranchCatalog.Proofs.Scan.Written

namespace BranchCatalog

/-- Holds of the trees of a variable. -/
def Event.isTreeOf (variableName : Text) : Event → Bool
  | tree _ finding => finding.variableName = variableName
  | _ => false

namespace Scan

/-- A text that can stand in double quotes. -/
abbrev Unquoted : Type := { text : Text // '"' ∉ text }

/-- The end of an argument list with a text in quotes as its last argument. -/
def close (count : Nat) : Text :=
  '"' :: (spaces count ++ [')'])

/-- An argument list with a text in quotes as its last argument ends in a text. -/
def HoldsClose (text : Text) : Prop :=
  ∃ before count after, text = before ++ (close count ++ after)

/-- A tree declaration with the spaces behind its pieces: of a tree that a service makes, or else of a new
one. -/
structure WrittenTree where
  variableName : Word
  service? : Option Word
  name : Word
  title : Unquoted
  gap : Nat → Nat
  lastGap : Nat

namespace WrittenTree

def pieces (tree : WrittenTree) : List Text :=
  match tree.service? with
  | some service => [tree.variableName, ['='], service, ['-', '>'], ['m', 'a', 'k', 'e'], ['<'],
      ['T', 'T', 'r', 'e', 'e'], ['>'], ['('], quoted tree.name, [',']]
  | none => [tree.variableName, ['='], ['n', 'e', 'w'], ['T', 'T', 'r', 'e', 'e'], ['('],
      quoted tree.name, [',']]

def text (tree : WrittenTree) : Text :=
  spaced tree.gap tree.pieces ++ (['"'] ++ (tree.title ++ close tree.lastGap))

end WrittenTree

section Title

variable {piece text title rest : Text}

theorem symbol?_parenthesis_isSome_iff :
    (symbol? [')'] rest).isSome ↔ ∃ count after, rest = spaces count ++ ([')'] ++ after) := by
  constructor
  · intro found
    obtain ⟨after, found⟩ := Option.isSome_iff_exists.mp found
    obtain ⟨count, split⟩ := exists_of_symbol? found
    exact ⟨count, after, split⟩
  · rintro ⟨count, after, rfl⟩
    rw [symbol?_spaces_append (by decide)]
    rfl

theorem close_append (count : Nat) (after : Text) :
    close count ++ after = '"' :: (spaces count ++ ([')'] ++ after)) := by
  rw [close, List.cons_append, List.append_assoc]

theorem holdsClose_cons_iff {char : Char} :
    HoldsClose (char :: rest) ↔ (char = '"' ∧ (symbol? [')'] rest).isSome) ∨ HoldsClose rest := by
  rw [symbol?_parenthesis_isSome_iff]
  constructor
  · rintro ⟨before, count, after, split⟩
    cases before with
    | nil =>
        rw [List.nil_append, close_append] at split
        obtain ⟨same, behind⟩ := List.cons.inj split
        exact Or.inl ⟨same, count, after, behind⟩
    | cons first before => exact Or.inr ⟨before, count, after, (List.cons.inj split).2⟩
  · rintro (⟨rfl, count, after, rfl⟩ | ⟨before, count, after, rfl⟩)
    · exact ⟨[], count, after, (close_append count after).symm⟩
    · exact ⟨char :: before, count, after, rfl⟩

/-- A title ends before the last close of the text, if there is one. -/
theorem beforeLastClose?_eq_none_iff : beforeLastClose? text = none ↔ ¬ HoldsClose text := by
  induction text with
  | nil => simp [beforeLastClose?, HoldsClose, close]
  | cons char rest inductionHypothesis =>
      rw [holdsClose_cons_iff, beforeLastClose?]
      cases found : beforeLastClose? rest with
      | some title =>
          have behind : HoldsClose rest := by
            by_contra none
            rw [inductionHypothesis.mpr none] at found
            contradiction
          simp [behind]
      | none => simp [inductionHypothesis.mp found]

/-- A piece without quotes is a part of every title that ends behind it. -/
theorem beforeLastClose?_append (unquoted : '"' ∉ piece) (rest : Text) :
    beforeLastClose? (piece ++ rest) = (beforeLastClose? rest).map (piece ++ ·) := by
  induction piece with
  | nil => simp
  | cons char piece inductionHypothesis =>
      obtain ⟨different, others⟩ := List.ne_and_not_mem_of_not_mem_cons unquoted
      rw [List.cons_append, beforeLastClose?, inductionHypothesis others]
      cases beforeLastClose? rest <;> simp [Ne.symm different]

theorem beforeLastClose?_append_of_some (found : beforeLastClose? rest = some title) (piece : Text) :
    beforeLastClose? (piece ++ rest) = some (piece ++ title) := by
  induction piece with
  | nil => exact found
  | cons char piece inductionHypothesis =>
      rw [List.cons_append, beforeLastClose?, inductionHypothesis]
      rfl

/-- A title goes on behind a close when there is another one. -/
theorem beforeLastClose?_close (count : Nat) (rest : Text) :
    beforeLastClose? (close count ++ rest) =
      some (((beforeLastClose? rest).map (close count ++ ·)).getD []) := by
  have unquoted : '"' ∉ spaces count ++ [')'] := by
    simp [not_mem_spaces]
  have closes : (symbol? [')'] (spaces count ++ [')'] ++ rest)).isSome = true :=
    symbol?_parenthesis_isSome_iff.mpr ⟨count, rest, List.append_assoc _ _ _⟩
  rw [close, List.cons_append, beforeLastClose?, beforeLastClose?_append unquoted]
  cases beforeLastClose? rest with
  | none => rw [Option.map_none, if_pos ⟨rfl, closes⟩, Option.map_none, Option.getD_none]
  | some title => rfl

/-- A written title is read together with the text from its close to the last one behind. -/
theorem title?_text (title : Unquoted) (count lastCount : Nat) (further : Text) :
    title? ([','] ++ (spaces count ++ (['"'] ++ (title ++ (close lastCount ++ further))))) =
      some (title ++ ((beforeLastClose? further).map (close lastCount ++ ·)).getD []) := by
  simp (disch := decide) only [title?, Text.dropStart?_append, symbol?_spaces_append,
    Option.bind_eq_bind, Option.bind_some]
  rw [beforeLastClose?_append title.property, beforeLastClose?_close, Option.map_some]

end Title

section Made

variable {piece rest : Text}

/-- A made tree has its type in angle brackets before its name. -/
theorem exists_of_madeTree? {text : Text} {tree : CreatedTree} (found : madeTree? text = some tree) :
    IsWordText tree.name ∧ ∃ before after, text = before ++ '"' :: (tree.name ++ '"' :: after) ∧
      '"' ∉ before ∧ '<' ∈ before := by
  simp only [madeTree?, Option.bind_eq_bind, Option.bind_eq_some_iff, Prod.exists] at found
  obtain ⟨variableName, _, read, _, equals, service, _, served, _, arrow, _, make, _, opens, _, type,
    _, closes, _, parenthesis, name, behind, named, same⟩ := found
  cases same
  have start := (passesTo_of_word? read).trans (passesTo_of_symbol? (by decide) equals)
  have call := (passesTo_skipSpaces _).trans ((passesTo_of_word? served).trans
    ((passesTo_of_symbol? (by decide) arrow).trans (passesTo_of_symbol? (by decide) make)))
  have angle := (passesTo_of_symbol? (by decide) type).trans ((passesTo_of_symbol? (by decide) closes).trans
    (passesTo_of_symbol? (by decide) parenthesis))
  obtain ⟨before, rfl, clear⟩ := start.trans call
  obtain ⟨count, rfl⟩ := exists_of_symbol? opens
  obtain ⟨inside, rfl, clearInside⟩ := angle
  obtain ⟨isName, lastCount, rfl⟩ := exists_of_quotedWord? named
  refine ⟨isName, before ++ (spaces count ++ (['<'] ++ (inside ++ spaces lastCount))), behind, ?_, ?_,
    by simp⟩
  · simp only [List.append_assoc, List.cons_append, List.nil_append]
  · simp [clear, clearInside, not_mem_spaces]

theorem madeTree?_cons_of_not {char : Char} {text : Text} (other : Text.isWord char = false) :
    madeTree? (char :: text) = none := by
  rw [madeTree?, word?_cons_of_not other]
  rfl

theorem newTree?_cons_of_not {char : Char} {text : Text} (other : Text.isWord char = false) :
    newTree? (char :: text) = none := by
  rw [newTree?, word?_cons_of_not other]
  rfl

/-- No made tree is found from inside of a piece that a quote follows, when the piece has no angle bracket or
when no word stands behind the quote. -/
theorem madeTree?_quote (unquoted : '"' ∉ piece)
    (apart : '<' ∉ piece ∨ ∀ char, rest.head? = some char → Text.isWord char = false) :
    madeTree? (piece ++ '"' :: rest) = none := by
  by_contra found
  obtain ⟨tree, found⟩ := Option.ne_none_iff_exists'.mp found
  obtain ⟨isName, before, after, split, clear, bracket⟩ := exists_of_madeTree? found
  have same := congrArg (Text.split '"') split
  rw [Text.split_append_of_not_mem unquoted, Text.split_append_of_not_mem clear] at same
  obtain ⟨rfl, -⟩ := List.cons.inj same
  have behind : rest = tree.name ++ '"' :: after := (List.cons.inj (List.append_cancel_left split)).2
  rcases apart with noBracket | noWord
  · exact noBracket bracket
  · obtain ⟨first, more, spelled⟩ := List.exists_cons_of_ne_nil isName.1
    have other := noWord first (by rw [behind, spelled]; rfl)
    rw [isName.2 first (by simp [spelled])] at other
    contradiction

/-- Such a piece is passed over in the search for a made tree. -/
theorem leftmost?_madeTree?_quote (unquoted : '"' ∉ piece)
    (apart : '<' ∉ piece ∨ ∀ char, rest.head? = some char → Text.isWord char = false) :
    leftmost? madeTree? (piece ++ (['"'] ++ rest)) = leftmost? madeTree? rest := by
  rw [← List.append_assoc]
  apply leftmost?_append
  intro later inside nonempty
  obtain none | ⟨piece', rfl, within⟩ := List.suffix_concat_iff.mp inside
  · exact absurd none nonempty
  · rw [List.append_assoc]
    apply madeTree?_quote fun quote => unquoted (within.subset quote)
    exact apart.imp_left fun clear bracket => clear (within.subset bracket)

/-- A title is passed over together with its close, which no word stands in. -/
theorem leftmost?_madeTree?_title (title : Unquoted) (count : Nat) (further : Text) :
    leftmost? madeTree? (title ++ (close count ++ further)) = leftmost? madeTree? further := by
  have noWord : ∀ char ∈ spaces count ++ [')'], Text.isWord char = false := by
    intro char member
    rcases List.mem_append.mp member with space | last
    · exact isWord_of_mem_spaces space
    · rw [List.mem_singleton.mp last]
      decide
  have noWordBehind : ∀ char, (spaces count ++ [')'] ++ further).head? = some char →
      Text.isWord char = false := by
    intro char starts
    rw [List.head?_append_of_ne_nil _ (by simp)] at starts
    exact noWord char (List.mem_of_head? starts)
  have whole : close count ++ further = ['"'] ++ (spaces count ++ [')'] ++ further) := rfl
  rw [whole, leftmost?_madeTree?_quote title.property (Or.inr noWordBehind)]
  exact leftmost?_append_of_not_word (fun _ _ => madeTree?_cons_of_not) noWord

end Made

section Declared

variable (tree : WrittenTree) (lead : Nat) (further : Text)

theorem skipSpaces_word (word : Word) (rest : Text) : skipSpaces (word ++ rest) = word ++ rest :=
  skipSpaces_run word.property (by decide) 0 rest

/-- The text of a declaration behind the name of its tree. -/
def WrittenTree.behindName : Text :=
  [','] ++ (spaces (tree.gap (tree.pieces.length - 1)) ++
    (['"'] ++ (tree.title ++ (close tree.lastGap ++ further))))

/-- The tree by `make` further on the line that is read in the place of a tree by `new`. -/
def WrittenTree.overriding? : Option CreatedTree :=
  match tree.service? with
  | some _ => none
  | none => leftmost? madeTree? further

/-- A tree by `make` is read where it is written. -/
theorem leftmost?_madeTree?_text {service : Word} (made : tree.service? = some service) :
    leftmost? madeTree? (spaces lead ++ (tree.text ++ further)) =
      some ⟨tree.variableName, tree.name, tree.behindName further⟩ := by
  rw [leftmost?_spaces_append fun _ _ => madeTree?_cons_of_not]
  apply leftmost?_of_some
  simp only [WrittenTree.text, WrittenTree.behindName, WrittenTree.pieces, made, spaced, List.append_assoc,
    List.nil_append, Nat.zero_add, Nat.reduceAdd]
  simp (disch := decide) only [madeTree?, word?_append_spaces, symbol?_spaces_append, skipSpaces_word,
    quotedWord?_spaces_append, skipSpaces_spaces_append, Option.bind_eq_bind, Option.bind_some]
  rfl

/-- A tree by `new` is read where it is written. -/
theorem leftmost?_newTree?_text (new : tree.service? = none) :
    leftmost? newTree? (spaces lead ++ (tree.text ++ further)) =
      some ⟨tree.variableName, tree.name, tree.behindName further⟩ := by
  rw [leftmost?_spaces_append fun _ _ => newTree?_cons_of_not]
  apply leftmost?_of_some
  simp only [WrittenTree.text, WrittenTree.behindName, WrittenTree.pieces, new, spaced, List.append_assoc,
    List.nil_append, Nat.zero_add, Nat.reduceAdd]
  simp (disch := decide) only [newTree?, word?_append_spaces, symbol?_spaces_append,
    quotedWord?_spaces_append, skipSpaces_spaces_append, Option.bind_eq_bind, Option.bind_some]
  rfl

/-- Up to its end, a tree by `new` holds nothing that reads as a tree by `make`. -/
theorem leftmost?_madeTree?_new (new : tree.service? = none) :
    leftmost? madeTree? (spaces lead ++ (tree.text ++ further)) = leftmost? madeTree? further := by
  -- the quotes cut the declaration, and of its pieces only the title can hold an angle bracket
  let opening := spaces lead ++ spaced tree.gap
    [tree.variableName, ['='], ['n', 'e', 'w'], ['T', 'T', 'r', 'e', 'e'], ['(']]
  let between := spaces (tree.gap 5) ++ ([','] ++ spaces (tree.gap 6))
  have split : spaces lead ++ (tree.text ++ further) = opening ++ (['"'] ++ (tree.name ++ (['"'] ++
      (between ++ (['"'] ++ (tree.title ++ (close tree.lastGap ++ further))))))) := by
    simp [opening, between, WrittenTree.text, WrittenTree.pieces, new, spaced, quoted]
  have quoteVariable : '"' ∉ tree.variableName.val := tree.variableName.property.not_mem (by decide)
  have angleVariable : '<' ∉ tree.variableName.val := tree.variableName.property.not_mem (by decide)
  have quoteName : '"' ∉ tree.name.val := tree.name.property.not_mem (by decide)
  have angleName : '<' ∉ tree.name.val := tree.name.property.not_mem (by decide)
  have quoteOpening : '"' ∉ opening := by simp [opening, spaced, not_mem_spaces, quoteVariable]
  have angleOpening : '<' ∉ opening := by simp [opening, spaced, not_mem_spaces, angleVariable]
  have quoteBetween : '"' ∉ between := by simp [between, not_mem_spaces]
  have angleBetween : '<' ∉ between := by simp [between, not_mem_spaces]
  rw [split, leftmost?_madeTree?_quote quoteOpening (Or.inl angleOpening),
    leftmost?_madeTree?_quote quoteName (Or.inl angleName),
    leftmost?_madeTree?_quote quoteBetween (Or.inl angleBetween), leftmost?_madeTree?_title]

/-- The tree of the line is the written one, or the one that overrides it. -/
theorem createdTree_text :
    (leftmost? madeTree? (spaces lead ++ (tree.text ++ further))).or
        (leftmost? newTree? (spaces lead ++ (tree.text ++ further))) =
      some ((tree.overriding? further).getD ⟨tree.variableName, tree.name, tree.behindName further⟩) := by
  cases form : tree.service? with
  | some service =>
      rw [leftmost?_madeTree?_text tree lead further form, WrittenTree.overriding?, form]
      rfl
  | none =>
      rw [leftmost?_madeTree?_new tree lead further form, leftmost?_newTree?_text tree lead further form,
        WrittenTree.overriding?, form]
      cases leftmost? madeTree? further <;> rfl

/-- A written declaration is read back, with its title up to the last quote that ends an argument list. -/
theorem declaredTree?_text (alone : tree.overriding? further = none) :
    declaredTree? (spaces lead ++ (tree.text ++ further)) =
      some ⟨tree.name, tree.title ++ ((beforeLastClose? further).map (close tree.lastGap ++ ·)).getD [],
        tree.variableName⟩ := by
  rw [declaredTree?, createdTree_text, alone, Option.getD_none, Option.map_some, WrittenTree.behindName,
    title?_text]
  rfl

/-- A made tree further on the line is declared in its place. -/
theorem declaredTree?_text_of_overriding {other : CreatedTree}
    (overrides : tree.overriding? further = some other) :
    declaredTree? (spaces lead ++ (tree.text ++ further)) =
      some ⟨other.name, (title? other.rest).getD (Text.trim (spaces lead ++ (tree.text ++ further))),
        other.variableName⟩ := by
  rw [declaredTree?, createdTree_text, overrides, Option.getD_some, Option.map_some]

end Declared

section Scanned

variable {filename content line : Text} {number : Nat} {events : List Event}

/-- The trees of a variable that events add on a line. -/
def treesOn (number : Nat) (variableName : Text) (events : List Event) : List Event :=
  events.filter fun event => event.isTreeOf variableName && event.line? = some number

theorem treesOn_eq_nil {variableName : Text} (none : HoldNoTreeOf variableName events) :
    treesOn number variableName events = [] := by
  rw [treesOn, List.filter_eq_nil_iff]
  intro event member
  cases event with
  | tree location tree => simp [Event.isTreeOf, none location tree member]
  | file | branch | note => simp [Event.isTreeOf]

theorem filter_declaredTrees (number : Nat) (lines : List (Text × Nat)) :
    (declaredTrees lines).filter (·.2 = number) = declaredTrees (lines.filter (·.2 = number)) := by
  rw [declaredTrees, declaredTrees, List.filter_filterMap, List.filterMap_filter]
  apply List.filterMap_congr
  rintro ⟨line, place⟩ -
  by_cases same : place = number <;> cases found : declaredTree? line <;> simp [same, found]

/-- A line declares its tree once. -/
theorem treesOn_declarationEvents (filename : Text) (stands : HasLine content number line)
    {tree : TreeFinding} (declared : declaredTree? line = some tree) :
    treesOn number tree.variableName (declarationEvents filename content) =
      [.tree ⟨filename, number⟩ tree] := by
  have single : (declaredTrees (Text.numberedLines content)).filter (·.2 = number) = [(tree, number)] := by
    rw [filter_declaredTrees, filter_numberedLines stands]
    simp [declaredTrees, declared]
  have onLine : (fun found : TreeFinding × Nat =>
      (Event.tree ⟨filename, found.2⟩ found.1).isTreeOf tree.variableName &&
        decide ((Event.tree ⟨filename, found.2⟩ found.1).line? = some number)) =
      fun found => decide (found.1.variableName = tree.variableName) && decide (found.2 = number) := by
    funext found
    simp [Event.isTreeOf, Event.line?]
  rw [treesOn, declarationEvents, List.filter_cons_of_neg (by simp [Event.isTreeOf]), List.filter_map,
    Function.comp_def, onLine, ← List.filter_filter, single]
  simp

/-- A line with a declaration adds one tree of the declared variable. -/
theorem treesOn_eq (scanned : scanSource filename content = .ok events)
    (stands : HasLine content number line) {tree : TreeFinding} (declared : declaredTree? line = some tree) :
    treesOn number tree.variableName events = [.tree ⟨filename, number⟩ tree] := by
  obtain ⟨branches, called, rfl⟩ := exists_of_scanSource scanned
  have held : ((declaredNames content).lookup tree.variableName).isSome := by
    rw [Option.isSome_iff_ne_none, Ne, lookup_declaredNames_eq_none_iff, heldTree?_eq_none_iff]
    intro none
    exact none number line tree stands declared rfl
  have noneAdded : treesOn number tree.variableName branches = [] :=
    treesOn_eq_nil (holdNoTreeOf_of_held called held)
  have noneNoted : treesOn number tree.variableName (noteEvents filename (branches.filterMap branchOf?)
      (Text.numberedLines content)) = [] :=
    treesOn_eq_nil (holdNoTreeOf_noteEvents tree.variableName _ _)
  have declarations := treesOn_declarationEvents filename stands declared
  rw [treesOn] at noneAdded noneNoted declarations ⊢
  rw [List.filter_append, List.filter_append, declarations, noneAdded, noneNoted, List.append_nil,
    List.append_nil]

/-- A line that starts with a written declaration adds one tree of the declared variable, under the declared
name, unless a tree by `make` overrides it. The title is the declared one exactly when no text in quotes ends
an argument list further on the line, and otherwise it takes in what stands up to the last such end. -/
theorem scanSource_reads_tree (scanned : scanSource filename content = .ok events) (tree : WrittenTree)
    {lead : Nat} {further : Text}
    (stands : HasLine content number (spaces lead ++ (tree.text ++ further))) :
    (tree.overriding? further = none → ∃ title,
      treesOn number tree.variableName events =
        [.tree ⟨filename, number⟩ ⟨tree.name, title, tree.variableName⟩] ∧
      (title = tree.title ↔ ¬ HoldsClose further) ∧
      ∀ more count after, further = more ++ (close count ++ after) → ¬ HoldsClose after →
        title = tree.title ++ (close tree.lastGap ++ more)) ∧
    ∀ other, tree.overriding? further = some other → ∃ title,
      treesOn number other.variableName events =
        [.tree ⟨filename, number⟩ ⟨other.name, title, other.variableName⟩] := by
  constructor
  · intro alone
    refine ⟨_, treesOn_eq scanned stands (declaredTree?_text tree lead further alone), ?_, ?_⟩
    · rw [← beforeLastClose?_eq_none_iff]
      cases beforeLastClose? further <;> simp [close]
    · rintro more count after rfl only
      have last : beforeLastClose? (close count ++ after) = some [] := by
        rw [beforeLastClose?_close, beforeLastClose?_eq_none_iff.mpr only]
        rfl
      rw [beforeLastClose?_append_of_some last, List.append_nil]
      rfl
  · intro other overrides
    exact ⟨_, treesOn_eq scanned stands (declaredTree?_text_of_overriding tree lead further overrides)⟩

/-- A title is read from a line with another text in quotes and a branch of an undeclared tree. -/
theorem scanSource_reads_tree_of_branch :
    let content := "  t = s -> make<TTree>(\"x\" , \"a, <b>)\" ); u->Branch(\"c\", &v, \"v/I\", 9);\n".toList
    let tree : WrittenTree :=
      { variableName := ⟨['t'], by decide⟩
        service? := some ⟨['s'], by decide⟩
        name := ⟨['x'], by decide⟩
        title := ⟨"a, <b>)".toList, by decide⟩
        gap := fun place => if place ∈ [0, 1, 2, 3, 9, 10] then 1 else 0
        lastGap := 1 }
    let further := "; u->Branch(\"c\", &v, \"v/I\", 9);".toList
    let events : List Event := [.file ['a'], .tree ⟨['a'], 1⟩ ⟨['x'], "a, <b>)".toList, ['t']⟩,
      .tree ⟨['a'], 1⟩ (undeclaredTree ['u']),
      .branch ⟨['a'], 1⟩ ⟨['u'], ['c'], "v/I".toList, ['v']⟩]
    HasLine content 1 (spaces 2 ++ (tree.text ++ further)) ∧ scanSource ['a'] content = .ok events ∧
      treesOn 1 tree.variableName events = [.tree ⟨['a'], 1⟩ ⟨tree.name, tree.title, tree.variableName⟩] := by
  intro content tree further events
  have stands : HasLine content 1 (spaces 2 ++ (tree.text ++ further)) := ⟨by decide, by decide +kernel⟩
  have scanned : scanSource ['a'] content = .ok events := by decide +kernel
  have noClose : ¬ HoldsClose further := beforeLastClose?_eq_none_iff.mp (by decide +kernel)
  obtain ⟨title, trees, whole, -⟩ := (scanSource_reads_tree scanned tree stands).1 rfl
  rw [whole.mpr noClose] at trees
  exact ⟨stands, scanned, trees⟩

/-- The title of a declaration that a call with a text in quotes follows takes in the start of the call. -/
theorem title_of_call_behind :
    let content := "t = new TTree(\"n\", \"a\"); f(\"b\");\n".toList
    let tree : WrittenTree :=
      { variableName := ⟨['t'], by decide⟩
        service? := none
        name := ⟨['n'], by decide⟩
        title := ⟨['a'], by decide⟩
        gap := fun place => if place ∈ [0, 1, 2, 6] then 1 else 0
        lastGap := 0 }
    HasLine content 1 (spaces 0 ++ (tree.text ++ "; f(\"b\");".toList)) ∧
      scanSource "a.cc".toList content = .ok [.file "a.cc".toList,
        .tree ⟨"a.cc".toList, 1⟩ ⟨['n'], "a\"); f(\"b".toList, ['t']⟩] ∧
      "a\"); f(\"b".toList ≠ tree.title := by
  exact ⟨⟨by decide, by decide +kernel⟩, by decide +kernel, by decide⟩

end Scanned

end Scan

end BranchCatalog
