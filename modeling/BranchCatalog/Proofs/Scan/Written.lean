import BranchCatalog.Proofs.Scan.Token

namespace BranchCatalog.Scan

def spaces (count : Nat) : Text :=
  List.replicate count ' '

/-- Pieces of code one after another, each with some spaces behind it. The gaps are numbered from the left. -/
def spaced (gap : Nat → Nat) : List Text → Text
  | [] => []
  | piece :: pieces => piece ++ (spaces (gap 0) ++ spaced (fun place => gap (place + 1)) pieces)

def quoted (text : Text) : Text :=
  ['"'] ++ (text ++ ['"'])

/-- A text of accepted characters, at least one. -/
def IsRunOf (accepted : Char → Bool) (text : Text) : Prop :=
  text ≠ [] ∧ ∀ char ∈ text, accepted char = true

instance (accepted : Char → Bool) (text : Text) : Decidable (IsRunOf accepted text) :=
  decidable_of_iff (text ≠ [] ∧ text.all accepted = true) (by rw [IsRunOf, List.all_eq_true])

instance (text : Text) : Decidable (IsWordText text) :=
  inferInstanceAs (Decidable (IsRunOf Text.isWord text))

/-- A word in code. -/
abbrev Word : Type := { text : Text // IsWordText text }

section Steps

variable {accepted : Char → Bool} {first : Char} {expected run : Text}

theorem skipSpaces_spaces_append (count : Nat) (rest : Text) :
    skipSpaces (spaces count ++ rest) = skipSpaces rest := by
  apply List.dropWhile_append_of_pos
  intro char member
  rw [List.eq_of_mem_replicate member]
  rfl

theorem skipSpaces_cons (other : first ≠ ' ') (rest : Text) :
    skipSpaces (first :: rest) = first :: rest := by
  rw [skipSpaces, List.dropWhile_cons_of_neg (by simpa using other)]

/-- Spaces are skipped up to the first other character. -/
theorem skipSpaces_spaces_cons (other : first ≠ ' ') (count : Nat) (rest : Text) :
    skipSpaces (spaces count ++ first :: rest) = first :: rest := by
  rw [skipSpaces_spaces_append, skipSpaces_cons other]

theorem symbol?_spaces_append (other : first ≠ ' ') (count : Nat) (rest : Text) :
    symbol? (first :: expected) (spaces count ++ ((first :: expected) ++ rest)) = some rest := by
  rw [symbol?, List.cons_append, skipSpaces_spaces_cons other, ← List.cons_append, Text.dropStart?_append]

/-- A symbol is not read where another character stands behind the spaces. -/
theorem symbol?_spaces_cons {char : Char} (noSpace : char ≠ ' ') (other : char ≠ first) (count : Nat)
    (rest : Text) : symbol? (first :: expected) (spaces count ++ char :: rest) = none := by
  rw [symbol?, skipSpaces_spaces_cons noSpace, Text.dropStart?, if_neg other]

theorem skipSpaces_run (is : IsRunOf accepted run) (space : accepted ' ' = false) (count : Nat)
    (rest : Text) : skipSpaces (spaces count ++ (run ++ rest)) = run ++ rest := by
  obtain ⟨first, more, rfl⟩ := List.exists_cons_of_ne_nil is.1
  have noSpace : first ≠ ' ' := by
    intro same
    rw [← same, is.2 first List.mem_cons_self] at space
    contradiction
  exact skipSpaces_spaces_cons noSpace count (more ++ rest)

theorem run?_append (is : IsRunOf accepted run) {rest : Text}
    (stops : ∀ char, rest.head? = some char → accepted char = false) :
    run? accepted (run ++ rest) = some (run, rest) := by
  have taken : rest.takeWhile accepted = [] := by
    cases rest with
    | nil => rfl
    | cons char rest => exact List.takeWhile_cons_of_neg (by simp [stops char rfl])
  have left : rest.dropWhile accepted = rest := by
    cases rest with
    | nil => rfl
    | cons char rest => exact List.dropWhile_cons_of_neg (by simp [stops char rfl])
  rw [run?, List.takeWhile_append_of_pos is.2, List.dropWhile_append_of_pos is.2, taken, left,
    List.append_nil, if_neg (by simpa using is.1)]

theorem run?_cons_of_not (stop : accepted first = false) (rest : Text) :
    run? accepted (first :: rest) = none := by
  rw [run?, List.takeWhile_cons_of_neg (by simp [stop])]
  rfl

theorem word?_cons_of_not (other : Text.isWord first = false) (rest : Text) : word? (first :: rest) = none :=
  run?_cons_of_not other rest

theorem head?_spaces_append {count : Nat} {rest : Text} {char : Char}
    (starts : (spaces count ++ ((first :: expected) ++ rest)).head? = some char) :
    char = ' ' ∨ char = first := by
  cases count with
  | zero => exact Or.inr (Option.some.inj starts).symm
  | succ count => exact Or.inl (Option.some.inj starts).symm

/-- A run is read up to the spaces behind it, or up to the piece behind these. -/
theorem run?_append_spaces (is : IsRunOf accepted run) (space : accepted ' ' = false)
    (stop : accepted first = false) (count : Nat) (rest : Text) :
    run? accepted (run ++ (spaces count ++ ((first :: expected) ++ rest))) =
      some (run, spaces count ++ ((first :: expected) ++ rest)) := by
  apply run?_append is
  intro char starts
  rcases head?_spaces_append starts with rfl | rfl
  · exact space
  · exact stop

/-- A word is read up to the spaces behind it. -/
theorem word?_append_spaces (word : Word) (stop : Text.isWord first = false) (count : Nat) (rest : Text) :
    word? (word ++ (spaces count ++ ((first :: expected) ++ rest))) =
      some (word.val, spaces count ++ ((first :: expected) ++ rest)) :=
  run?_append_spaces word.property (by decide) stop count rest

theorem word?_append (word : Word) (stop : Text.isWord first = false) (rest : Text) :
    word? (word ++ ((first :: expected) ++ rest)) = some (word.val, (first :: expected) ++ rest) :=
  word?_append_spaces word stop 0 rest

theorem quoted_append (text rest : Text) :
    quoted text ++ rest = ['"'] ++ (text ++ (['"'] ++ rest)) := by
  rw [quoted, List.append_assoc, List.append_assoc]

/-- A word in quotes is found behind spaces. -/
theorem quotedWord?_spaces_append (word : Word) (count : Nat) (rest : Text) :
    quotedWord? (spaces count ++ (quoted word ++ rest)) = some (word.val, rest) := by
  rw [quotedWord?, quoted_append]
  simp (disch := decide) only [symbol?_spaces_append, word?_append, Text.dropStart?_append,
    Option.bind_eq_bind, Option.bind_some]
  rfl

end Steps

section Found

variable {char : Char} {expected text rest word : Text}

theorem not_mem_spaces (other : char ≠ ' ') (count : Nat) : char ∉ spaces count := by
  intro inside
  exact other (List.eq_of_mem_replicate inside)

theorem IsWordText.not_mem (is : IsWordText word) (other : Text.isWord char = false) : char ∉ word := by
  intro inside
  rw [is.2 char inside] at other
  contradiction

/-- A text starts with as many spaces as are skipped. -/
theorem exists_spaces (text : Text) : ∃ count, text = spaces count ++ skipSpaces text := by
  refine ⟨(text.takeWhile (· == ' ')).length, ?_⟩
  have taken : text.takeWhile (· == ' ') = spaces (text.takeWhile (· == ' ')).length := by
    rw [spaces, List.eq_replicate_length]
    intro char inside
    simpa using List.all_eq_true.mp List.all_takeWhile char inside
  rw [skipSpaces, ← taken, List.takeWhile_append_dropWhile]

/-- A symbol that is found stands behind spaces. -/
theorem exists_of_symbol? (found : symbol? expected text = some rest) :
    ∃ count, text = spaces count ++ (expected ++ rest) := by
  obtain ⟨count, split⟩ := exists_spaces text
  rw [Text.eq_append_of_dropStart? found] at split
  exact ⟨count, split⟩

/-- A word in quotes that is found stands behind spaces. -/
theorem exists_of_quotedWord? (found : quotedWord? text = some (word, rest)) :
    IsWordText word ∧ ∃ count, text = spaces count ++ '"' :: (word ++ '"' :: rest) := by
  simp only [quotedWord?, Option.bind_eq_bind, Option.bind_eq_some_iff, Prod.exists] at found
  obtain ⟨opened, opens, other, left, read, closed, closes, same⟩ := found
  cases same
  obtain ⟨count, rfl⟩ := exists_of_symbol? opens
  obtain ⟨rfl, is⟩ := run?_eq_some read
  rw [Text.eq_append_of_dropStart? closes]
  exact ⟨is, count, rfl⟩

/-- The rest of a text behind a start without quotes. -/
def PassesTo (text rest : Text) : Prop :=
  ∃ passed, text = passed ++ rest ∧ '"' ∉ passed

theorem PassesTo.trans {later : Text} (first : PassesTo text rest) (second : PassesTo rest later) :
    PassesTo text later := by
  obtain ⟨passed, rfl, clear⟩ := first
  obtain ⟨further, rfl, clearBehind⟩ := second
  exact ⟨passed ++ further, (List.append_assoc _ _ _).symm, by simp [clear, clearBehind]⟩

theorem passesTo_skipSpaces (text : Text) : PassesTo text (skipSpaces text) := by
  obtain ⟨count, split⟩ := exists_spaces text
  exact ⟨spaces count, split, not_mem_spaces (by decide) count⟩

/-- Reading a symbol without quotes passes no literal. -/
theorem passesTo_of_symbol? (unquoted : '"' ∉ expected) (found : symbol? expected text = some rest) :
    PassesTo text rest := by
  have start : PassesTo (skipSpaces text) rest :=
    ⟨expected, Text.eq_append_of_dropStart? found, unquoted⟩
  exact (passesTo_skipSpaces text).trans start

theorem passesTo_of_word? (found : word? text = some (word, rest)) : PassesTo text rest := by
  obtain ⟨rfl, is⟩ := run?_eq_some found
  exact ⟨word, rfl, IsWordText.not_mem is (by decide)⟩

end Found

section Leftmost

variable {Result : Type} {pattern : Text → Option Result} {start rest : Text} {result : Result}

/-- A pattern that starts at once is found at once. -/
theorem leftmost?_of_some (here : pattern rest = some result) : leftmost? pattern rest = some result := by
  cases rest with
  | nil => exact here
  | cons char rest => rw [leftmost?, here]

/-- A start of a text is passed over when the pattern fits at none of its places. -/
theorem leftmost?_append (fails : ∀ later, later <:+ start → later ≠ [] → pattern (later ++ rest) = none) :
    leftmost? pattern (start ++ rest) = leftmost? pattern rest := by
  induction start with
  | nil => rfl
  | cons char start inductionHypothesis =>
      have here := fails (char :: start) List.suffix_rfl (List.cons_ne_nil char start)
      have behind := inductionHypothesis fun later inside =>
        fails later (inside.trans (List.suffix_cons char start))
      rw [List.cons_append] at here ⊢
      rw [leftmost?, here, behind]

/-- A pattern that starts with a word passes over other characters. -/
theorem leftmost?_append_of_not_word (starts : ∀ char text, Text.isWord char = false →
    pattern (char :: text) = none) (other : ∀ char ∈ start, Text.isWord char = false) :
    leftmost? pattern (start ++ rest) = leftmost? pattern rest := by
  apply leftmost?_append
  intro later inside nonempty
  obtain ⟨first, more, rfl⟩ := List.exists_cons_of_ne_nil nonempty
  exact starts first (more ++ rest) (other first (inside.subset List.mem_cons_self))

theorem isWord_of_mem_spaces {char : Char} {count : Nat} (member : char ∈ spaces count) :
    Text.isWord char = false := by
  rw [List.eq_of_mem_replicate member]
  decide

/-- A pattern that starts with a word is looked for behind the spaces. -/
theorem leftmost?_spaces_append (starts : ∀ char text, Text.isWord char = false →
    pattern (char :: text) = none) (count : Nat) :
    leftmost? pattern (spaces count ++ rest) = leftmost? pattern rest :=
  leftmost?_append_of_not_word starts fun _ => isWord_of_mem_spaces

end Leftmost

end BranchCatalog.Scan
