import BranchCatalog.Text.Word

namespace BranchCatalog.Scan

/-- Spaces separate the parts of a pattern; tabs and other blanks do not. -/
def skipSpaces (text : Text) : Text :=
  text.dropWhile (· == ' ')

/-- Reads the longest run of accepted characters, which must not be empty. -/
def run? (accepted : Char → Bool) (text : Text) : Option (Text × Text) :=
  if (text.takeWhile accepted).isEmpty then none
  else some (text.takeWhile accepted, text.dropWhile accepted)

def word? (text : Text) : Option (Text × Text) :=
  run? Text.isWord text

/-- The characters of a value variable: those of words, and dots. -/
def isChainChar (char : Char) : Bool :=
  Text.isWord char || char == '.'

/-- Reads a value variable, which is a run of word characters and dots. -/
def chain? (text : Text) : Option (Text × Text) :=
  run? isChainChar text

/-- Reads any spaces and then the expected symbol. -/
def symbol? (expected : Text) (text : Text) : Option Text :=
  Text.dropStart? expected (skipSpaces text)

/-- Reads any spaces and then a word in double quotes. -/
def quotedWord? (text : Text) : Option (Text × Text) := do
  let text ← symbol? ['"'] text
  let (word, text) ← word? text
  let text ← Text.dropStart? ['"'] text
  return (word, text)

/-- The first result, from the left, of a pattern tried at every place of a text. -/
def leftmost? {Result : Type} (pattern : Text → Option Result) : Text → Option Result
  | [] => pattern []
  | char :: rest =>
    match pattern (char :: rest) with
    | some result => some result
    | none => leftmost? pattern rest

/-- A run is what was taken from the start of the text. -/
theorem run?_eq_some {accepted : Char → Bool} {text run rest : Text}
    (found : run? accepted text = some (run, rest)) :
    text = run ++ rest ∧ run ≠ [] ∧ ∀ char ∈ run, accepted char = true := by
  simp only [run?] at found
  split at found
  · contradiction
  · next nonempty =>
      obtain ⟨rfl, rfl⟩ := Prod.mk.inj (Option.some.inj found)
      exact ⟨List.takeWhile_append_dropWhile.symm, by simpa using nonempty,
        fun char member => List.all_eq_true.mp List.all_takeWhile char member⟩

end BranchCatalog.Scan
