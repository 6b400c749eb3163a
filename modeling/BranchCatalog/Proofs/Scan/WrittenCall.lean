import BranchCatalog.Scan.Source
import BranchCatalog.Proofs.Scan.Written

namespace BranchCatalog.Scan

/-- A value variable in code: a run of word characters and dots. -/
abbrev ValueVariable : Type := { text : Text // IsRunOf isChainChar text }

/-- A class name in code, which holds no quote. -/
abbrev ClassName : Type := { text : Text // IsRunOf (· != '"') text }

/-- The type at the end of a leaf definition as it is written: a slash and a word character, of which either
may be missing. -/
structure LeafEnd where
  slash : Bool
  kind : Option { char : Char // Text.isWord char = true }

def LeafEnd.text (ending : LeafEnd) : Text :=
  (if ending.slash then ['/'] else []) ++ (ending.kind.map Subtype.val).toList

/-- What ends the last argument that is read. -/
inductive Closing where
  | comma
  | parenthesis

def Closing.char : Closing → Char
  | comma => ','
  | parenthesis => ')'

/-- The arguments of a branch call behind the branch's name, in one of the four forms. -/
inductive WrittenArguments where
  | single (isReference : Bool) (value : ValueVariable) (leaf : Word) (ending : LeafEnd) (closing : Closing)
  | array (value : ValueVariable) (leaf length : Word) (ending : LeafEnd) (closing : Closing)
  | classValue (className : ClassName) (isReference : Bool) (value : ValueVariable) (closing : Closing)
  | object (isReference : Bool) (value : ValueVariable)

/-- A variable or its address. -/
def referenced (isReference : Bool) (value : ValueVariable) : Text :=
  (if isReference then ['&'] else []) ++ value

def arrayLeaf (leaf length : Word) (ending : LeafEnd) : Text :=
  leaf ++ (['['] ++ (length ++ ([']'] ++ ending.text)))

namespace WrittenArguments

def pieces : WrittenArguments → List Text
  | single isReference value leaf ending _ =>
    [[','], referenced isReference value, [','], quoted (leaf ++ ending.text)]
  | array value leaf length ending _ =>
    [[','], referenced false value, [','], quoted (arrayLeaf leaf length ending)]
  | classValue className isReference value _ =>
    [[','], quoted className, [','], referenced isReference value]
  | object isReference value => [[','], referenced isReference value]

def closing : WrittenArguments → Closing
  | single _ _ _ _ closing | array _ _ _ _ closing | classValue _ _ _ closing => closing
  | object _ _ => .parenthesis

def text (gap : Nat → Nat) (arguments : WrittenArguments) : Text :=
  spaced gap arguments.pieces ++ [arguments.closing.char]

/-- What the arguments say of a branch of a name. -/
def meaning (branchName : Text) : WrittenArguments → BranchArguments
  | single _ value leaf ending _ => ⟨value, leaf ++ ending.text⟩
  | array value leaf length ending _ => ⟨value, arrayLeaf leaf length ending⟩
  | classValue className _ value _ =>
    ⟨value, branchName ++ " (".toList ++ quoted className ++ [')']⟩
  | object _ value => ⟨value, branchName ++ " (object)".toList⟩

end WrittenArguments

/-- A branch call with the spaces behind its pieces. -/
structure WrittenCall where
  treeVariable : Word
  name : Word
  arguments : WrittenArguments
  gap : Nat → Nat

def WrittenCall.text (call : WrittenCall) : Text :=
  spaced call.gap [call.treeVariable, ['-', '>'], ['B', 'r', 'a', 'n', 'c', 'h'], ['('],
    quoted call.name] ++ call.arguments.text fun place => call.gap (place + 5)

def WrittenCall.branch (treeName : Text) (call : WrittenCall) : BranchFinding :=
  { treeName, name := call.name
    leafDefinition := (call.arguments.meaning call.name).leafDefinition
    valueVariable := (call.arguments.meaning call.name).valueVariable }

section Reading

variable (gap : Nat → Nat) (rest : Text)

theorem leafType_text (ending : LeafEnd) :
    leafType (ending.text ++ (['"'] ++ rest)) = (ending.text, ['"'] ++ rest) := by
  obtain ⟨slash, kind⟩ := ending
  have quote : Text.isWord '"' = false := by decide
  cases kind with
  | none => cases slash <;> simp [LeafEnd.text, leafType, quote]
  | some kind =>
      obtain ⟨char, word⟩ := kind
      have other : char ≠ '/' := by
        intro same
        rw [same] at word
        exact absurd word (by decide)
      cases slash <;> simp [LeafEnd.text, leafType, word, other]

/-- A leaf name is read up to its slash, or together with its type when there is no slash. -/
theorem exists_word_leafType (leaf : Word) (ending : LeafEnd) :
    ∃ name left kind, word? (leaf ++ (ending.text ++ (['"'] ++ rest))) = some (name, left) ∧
      leafType left = (kind, ['"'] ++ rest) ∧ name ++ kind = leaf ++ ending.text := by
  obtain ⟨slash, kind⟩ := ending
  cases slash with
  | true =>
      have word (rest : Text) : word? (leaf ++ (['/'] ++ rest)) = some (leaf.val, ['/'] ++ rest) :=
        word?_append leaf (by decide) rest
      exact ⟨leaf, _, _, word _, leafType_text rest ⟨true, kind⟩, rfl⟩
  | false =>
      have whole : IsWordText (leaf ++ LeafEnd.text ⟨false, kind⟩) := by
        constructor
        · simp [leaf.property.1]
        · cases kind with
          | none => simpa [LeafEnd.text] using leaf.property.2
          | some kind =>
              intro char member
              rcases List.mem_append.mp member with inside | last
              · exact leaf.property.2 char inside
              · rw [List.mem_singleton.mp last]
                exact kind.property
      refine ⟨_, _, _, ?_, leafType_text rest ⟨false, none⟩, List.append_nil _⟩
      rw [← List.append_assoc]
      exact word?_append ⟨_, whole⟩ (by decide) rest

/-- The closing character ends the last argument. -/
theorem endsArgument_closing (closing : Closing) (count : Nat) :
    endsArgument (spaces count ++ ([closing.char] ++ rest)) = true := by
  rw [endsArgument, skipSpaces_spaces_append]
  cases closing <;> rfl

theorem isChainChar_closing (closing : Closing) : isChainChar closing.char = false := by
  cases closing <;> decide

/-- A value variable is read up to the spaces behind it. -/
theorem chain?_append_spaces {first : Char} {expected : Text} (value : ValueVariable)
    (stop : isChainChar first = false) (count : Nat) (rest : Text) :
    chain? (value ++ (spaces count ++ ((first :: expected) ++ rest))) =
      some (value.val, spaces count ++ ((first :: expected) ++ rest)) :=
  run?_append_spaces value.property (by decide) stop count rest

/-- A value variable starts neither with a space nor as an address nor as a text in quotes. -/
theorem exists_first (value : ValueVariable) :
    ∃ first more, value.val = first :: more ∧ first ≠ ' ' ∧ first ≠ '&' ∧ first ≠ '"' := by
  obtain ⟨first, more, spelled⟩ := List.exists_cons_of_ne_nil value.property.1
  have chain : isChainChar first = true := value.property.2 first (by simp [spelled])
  have apart (char : Char) (other : isChainChar char = false) : first ≠ char := by
    intro same
    rw [same, other] at chain
    contradiction
  exact ⟨first, more, spelled, apart ' ' (by decide), apart '&' (by decide), apart '"' (by decide)⟩

theorem skipSpaces_value (value : ValueVariable) (count : Nat) :
    skipSpaces (spaces count ++ (value ++ rest)) = value ++ rest :=
  skipSpaces_run value.property (by decide) count rest

theorem referenced_false (value : ValueVariable) : referenced false value = value.val := rfl

theorem skipReference_referenced (isReference : Bool) (value : ValueVariable) (count : Nat) :
    skipReference (spaces count ++ (referenced isReference value ++ rest)) = value ++ rest := by
  cases isReference with
  | true =>
      rw [skipReference, skipSpaces_spaces_append]
      rfl
  | false =>
      obtain ⟨first, more, spelled, -, noReference, -⟩ := exists_first value
      rw [skipReference, referenced_false, skipSpaces_value]
      simp [spelled, noReference]

theorem text_append (arguments : WrittenArguments) :
    arguments.text gap ++ rest = spaced gap arguments.pieces ++ ([arguments.closing.char] ++ rest) := by
  rw [WrittenArguments.text, List.append_assoc]

end Reading

section Forms

variable (gap : Nat → Nat) (rest : Text)

/-- Arguments with a leaf of one value are read back. -/
theorem singleValue?_single (isReference : Bool) (value : ValueVariable) (leaf : Word) (ending : LeafEnd)
    (closing : Closing) :
    singleValue? ((WrittenArguments.single isReference value leaf ending closing).text gap ++ rest) =
      some ⟨value, leaf ++ ending.text⟩ := by
  obtain ⟨name, left, kind, word, typed, whole⟩ :=
    exists_word_leafType (spaces (gap 3) ++ ([closing.char] ++ rest)) leaf ending
  simp only [text_append, WrittenArguments.pieces, WrittenArguments.closing, spaced, List.append_assoc,
    List.nil_append, Nat.zero_add, Nat.reduceAdd]
  simp (disch := decide) only [singleValue?, Text.dropStart?_append, skipReference_referenced,
    chain?_append_spaces, symbol?_spaces_append, quoted_append, List.append_assoc, Option.bind_eq_bind,
    Option.bind_some, word, typed, endsArgument_closing, if_true, whole]

/-- A length in square brackets stands where a single value has its type or the end of its quotes. -/
theorem singleValue?_array (value : ValueVariable) (leaf length : Word) (ending : LeafEnd)
    (closing : Closing) :
    singleValue? ((WrittenArguments.array value leaf length ending closing).text gap ++ rest) = none := by
  have noType (rest : Text) : leafType (['['] ++ rest) = ([], ['['] ++ rest) := by
    have bracket : Text.isWord '[' = false := by decide
    simp [leafType, bracket]
  have noQuote (rest : Text) : Text.dropStart? ['"'] (['['] ++ rest) = none := rfl
  simp only [text_append, WrittenArguments.pieces, WrittenArguments.closing, arrayLeaf, spaced,
    List.append_assoc, List.nil_append, Nat.zero_add, Nat.reduceAdd]
  simp (disch := decide) only [singleValue?, Text.dropStart?_append, skipReference_referenced,
    chain?_append_spaces, symbol?_spaces_append, quoted_append, List.append_assoc, Option.bind_eq_bind,
    Option.bind_some, Option.bind_none, word?_append, noType, noQuote]

/-- Arguments with a leaf of several values are read back. -/
theorem arrayValue?_array (value : ValueVariable) (leaf length : Word) (ending : LeafEnd)
    (closing : Closing) :
    arrayValue? ((WrittenArguments.array value leaf length ending closing).text gap ++ rest) =
      some ⟨value, arrayLeaf leaf length ending⟩ := by
  have comma (rest : Text) : chain? (skipSpaces (spaces (gap 0) ++ (value ++ (spaces (gap 1) ++
      ([','] ++ rest))))) = some (value.val, spaces (gap 1) ++ ([','] ++ rest)) := by
    rw [skipSpaces_value, chain?_append_spaces value (by decide)]
  have bracket (rest : Text) : word? (leaf ++ (['['] ++ rest)) = some (leaf.val, ['['] ++ rest) :=
    word?_append leaf (by decide) rest
  have closed (rest : Text) : word? (length ++ ([']'] ++ rest)) = some (length.val, [']'] ++ rest) :=
    word?_append length (by decide) rest
  simp only [text_append, WrittenArguments.pieces, WrittenArguments.closing, arrayLeaf, referenced_false,
    spaced, List.append_assoc, List.nil_append, Nat.zero_add, Nat.reduceAdd]
  -- each step of the pattern with what it reads, so that no step is looked at before the one that it follows
  simp only [quoted_append, List.append_assoc, arrayValue?, Option.bind_eq_bind, Option.bind_eq_some_iff,
    Prod.exists]
  refine ⟨_, Text.dropStart?_append _ _, _, _, comma _, _, symbol?_spaces_append (by decide) _ _, _,
    symbol?_spaces_append (by decide) _ _, _, _, bracket _, _, Text.dropStart?_append _ _, _, _, closed _, _,
    Text.dropStart?_append _ _, ?_⟩
  rw [leafType_text]
  refine ⟨_, Text.dropStart?_append _ _, ?_⟩
  rw [if_pos (endsArgument_closing _ _ _)]
  simp

/-- A text in quotes stands where the other forms have a value variable. -/
theorem noValue_classValue (className : ClassName) (isReference : Bool) (value : ValueVariable)
    (closing : Closing) :
    singleValue? ((WrittenArguments.classValue className isReference value closing).text gap ++ rest) =
        none ∧
      arrayValue? ((WrittenArguments.classValue className isReference value closing).text gap ++ rest) =
        none := by
  have noChain (rest : Text) : chain? (['"'] ++ rest) = none := run?_cons_of_not (by decide) rest
  have quote (count : Nat) (rest : Text) : skipSpaces (spaces count ++ (['"'] ++ rest)) = ['"'] ++ rest :=
    skipSpaces_spaces_cons (by decide) count rest
  have reference (count : Nat) (rest : Text) :
      skipReference (spaces count ++ (['"'] ++ rest)) = ['"'] ++ rest := by
    rw [skipReference, quote]
    rfl
  simp only [text_append, WrittenArguments.pieces, spaced, quoted_append, List.append_assoc]
  simp only [singleValue?, arrayValue?, Text.dropStart?_append, quote, reference, noChain,
    Option.bind_eq_bind, Option.bind_some, Option.bind_none, and_self]

/-- Arguments with a class name are read back. -/
theorem classValue?_classValue (branchName : Text) (className : ClassName) (isReference : Bool)
    (value : ValueVariable) (closing : Closing) :
    classValue? branchName
        ((WrittenArguments.classValue className isReference value closing).text gap ++ rest) =
      some ⟨value, branchName ++ " (".toList ++ quoted className ++ [')']⟩ := by
  have name (rest : Text) : run? (· != '"') (className ++ (['"'] ++ rest)) =
      some (className.val, ['"'] ++ rest) := by
    apply run?_append className.property
    intro char first
    cases first
    rfl
  have stop : isChainChar closing.char = false := isChainChar_closing closing
  simp only [text_append, WrittenArguments.pieces, WrittenArguments.closing, spaced, List.append_assoc,
    List.nil_append, Nat.zero_add, Nat.reduceAdd]
  simp (disch := first | decide | exact stop) only [classValue?, Text.dropStart?_append,
    symbol?_spaces_append, quoted_append, List.append_assoc, name, skipReference_referenced,
    chain?_append_spaces, Option.bind_eq_bind, Option.bind_some, endsArgument_closing, if_true]
  simp

/-- A parenthesis stands where the other forms have a comma, and a value variable where a class value has its
quotes. -/
theorem noOther_object (branchName : Text) (isReference : Bool) (value : ValueVariable) :
    singleValue? ((WrittenArguments.object isReference value).text gap ++ rest) = none ∧
      arrayValue? ((WrittenArguments.object isReference value).text gap ++ rest) = none ∧
      classValue? branchName ((WrittenArguments.object isReference value).text gap ++ rest) = none := by
  have noComma (count : Nat) (rest : Text) : symbol? [','] (spaces count ++ ([')'] ++ rest)) = none :=
    symbol?_spaces_cons (by decide) (by decide) count rest
  have noQuote (count : Nat) (rest : Text) :
      symbol? ['"'] (spaces count ++ (referenced isReference value ++ rest)) = none := by
    cases isReference with
    | true => exact symbol?_spaces_cons (by decide) (by decide) count _
    | false =>
        obtain ⟨first, more, spelled, noSpace, -, other⟩ := exists_first value
        rw [referenced_false, spelled]
        exact symbol?_spaces_cons noSpace other count _
  have noChain (rest : Text) : chain? (['&'] ++ rest) = none := run?_cons_of_not (by decide) rest
  have address (count : Nat) (rest : Text) : skipSpaces (spaces count ++ (['&'] ++ rest)) = ['&'] ++ rest :=
    skipSpaces_spaces_cons (by decide) count rest
  simp only [text_append, WrittenArguments.pieces, WrittenArguments.closing, Closing.char, spaced,
    List.append_assoc, List.nil_append, Nat.zero_add]
  refine ⟨?_, ?_, ?_⟩
  · simp (disch := decide) only [singleValue?, Text.dropStart?_append, skipReference_referenced,
      chain?_append_spaces, noComma, Option.bind_eq_bind, Option.bind_some, Option.bind_none]
  · cases isReference with
    | true =>
        simp only [arrayValue?, Text.dropStart?_append, referenced, if_true, List.append_assoc, address,
          noChain, Option.bind_eq_bind, Option.bind_some, Option.bind_none]
    | false =>
        rw [arrayValue?, Text.dropStart?_append, referenced_false]
        change (chain? (skipSpaces _)).bind _ = none
        rw [skipSpaces_value, chain?_append_spaces value (by decide)]
        change (symbol? [','] _).bind _ = none
        rw [noComma, Option.bind_none]
  · simp only [classValue?, Text.dropStart?_append, noQuote, Option.bind_eq_bind, Option.bind_some,
      Option.bind_none]

/-- Arguments with a variable alone are read back. -/
theorem objectValue?_object (branchName : Text) (isReference : Bool) (value : ValueVariable) :
    objectValue? branchName ((WrittenArguments.object isReference value).text gap ++ rest) =
      some ⟨value, branchName ++ " (object)".toList⟩ := by
  have ends (count : Nat) : endsArgument (spaces count ++ ([')'] ++ rest)) = true :=
    endsArgument_closing rest .parenthesis count
  simp only [text_append, WrittenArguments.pieces, WrittenArguments.closing, Closing.char, spaced,
    List.append_assoc, List.nil_append, Nat.zero_add]
  simp (disch := decide) only [objectValue?, Text.dropStart?_append, skipReference_referenced,
    chain?_append_spaces, ends, Option.bind_eq_bind, Option.bind_some, if_true]

/-- Of the four forms, the arguments are read in the one that they are written in. -/
theorem arguments?_text (treeVariable name : Text) (arguments : WrittenArguments) :
    BranchCall.arguments? ⟨treeVariable, name, arguments.text gap ++ rest⟩ =
      some (arguments.meaning name) := by
  cases arguments with
  | single isReference value leaf ending closing =>
      rw [BranchCall.arguments?, singleValue?_single]
      rfl
  | array value leaf length ending closing =>
      rw [BranchCall.arguments?, singleValue?_array, arrayValue?_array]
      rfl
  | classValue className isReference value closing =>
      obtain ⟨single, array⟩ := noValue_classValue gap rest className isReference value closing
      rw [BranchCall.arguments?, single, array, classValue?_classValue]
      rfl
  | object isReference value =>
      obtain ⟨single, array, classed⟩ := noOther_object gap rest name isReference value
      rw [BranchCall.arguments?, single, array, classed, objectValue?_object]
      rfl

end Forms

section Calls

variable (call : WrittenCall) (rest : Text)

theorem branchCallHere?_cons_of_not {char : Char} {text : Text} (other : Text.isWord char = false) :
    branchCallHere? (char :: text) = none := by
  rw [branchCallHere?, word?_cons_of_not other]
  rfl

/-- What is left behind the name of a call begins with the comma before its arguments. -/
theorem skipSpaces_arguments (arguments : WrittenArguments) (gap : Nat → Nat) (count : Nat) :
    skipSpaces (spaces count ++ (arguments.text gap ++ rest)) = arguments.text gap ++ rest := by
  cases arguments <;> exact skipSpaces_spaces_cons (by decide) count _

/-- A written call is read back up to its arguments. -/
theorem branchCall?_text (lead : Nat) :
    branchCall? (spaces lead ++ (call.text ++ rest)) = some ⟨call.treeVariable, call.name,
      (call.arguments.text fun place => call.gap (place + 5)) ++ rest⟩ := by
  rw [branchCall?, leftmost?_spaces_append fun _ _ => branchCallHere?_cons_of_not]
  apply leftmost?_of_some
  simp only [WrittenCall.text, spaced, List.append_assoc, List.nil_append, Nat.zero_add, Nat.reduceAdd]
  simp (disch := decide) only [branchCallHere?, word?_append_spaces, symbol?_spaces_append,
    quotedWord?_spaces_append, skipSpaces_arguments, Option.bind_eq_bind, Option.bind_some]
  rfl

end Calls

end BranchCatalog.Scan
