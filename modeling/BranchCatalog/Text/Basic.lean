namespace BranchCatalog

/-- A text is a list of Unicode characters. -/
abbrev Text : Type := List Char

namespace Text

/-- The decimal digits of a number, without leading zeros. -/
def decimal (number : Nat) : Text :=
  Nat.toDigits 10 number

/-- The decimal digits of an integer, after a minus sign when it is negative. -/
def signed : Int → Text
  | .ofNat number => decimal number
  | .negSucc number => '-' :: decimal (number + 1)

def digitValue (digit : Char) : Nat :=
  digit.toNat - '0'.toNat

/-- The number that decimal digits spell; there must be at least one digit and nothing else. -/
def readDecimal? (text : Text) : Option Nat :=
  if text.isEmpty || !text.all Char.isDigit then none
  else some (text.foldl (fun number digit => number * 10 + digitValue digit) 0)

/-- The integer that decimal digits spell, with a minus sign before them or not. -/
def readSigned? : Text → Option Int
  | '-' :: digits => (readDecimal? digits).map fun number => -(number : Int)
  | digits => (readDecimal? digits).map Int.ofNat

/-- The pieces of a text between the separators; there is one more piece than separators. -/
def split (separator : Char) : Text → List Text
  | [] => [[]]
  | char :: rest =>
    if char = separator then [] :: split separator rest
    else
      match split separator rest with
      | [] => [[char]]
      | piece :: pieces => (char :: piece) :: pieces

/-- The pieces one after another, with the separator between neighbours. -/
def join (separator : Text) (pieces : List Text) : Text :=
  separator.intercalate pieces

/-- What follows a given start of a text, or nothing when the text starts otherwise. -/
def dropStart? : Text → Text → Option Text
  | [], text => some text
  | _ :: _, [] => none
  | expected :: start, char :: text => if char = expected then dropStart? start text else none

/-- Holds when the wanted text occurs somewhere in the text. -/
def occursIn (wanted : Text) : Text → Bool
  | [] => wanted.isEmpty
  | char :: rest => wanted.isPrefixOf (char :: rest) || occursIn wanted rest

/-- Replaces while the first `skipped` characters still belong to the last occurrence found. -/
def replaceFrom (wanted replacement : Text) : Nat → Text → Text
  | _, [] => []
  | skipped + 1, _ :: rest => replaceFrom wanted replacement skipped rest
  | 0, char :: rest =>
    if wanted.isPrefixOf (char :: rest) then
      replacement ++ replaceFrom wanted replacement (wanted.length - 1) rest
    else char :: replaceFrom wanted replacement 0 rest

/-- Every occurrence of the wanted text, taken from the left without overlap, gives way to the
replacement. -/
def replaceAll (wanted replacement text : Text) : Text :=
  replaceFrom wanted replacement 0 text

/-- ASCII letters become lower case and all other characters stay. -/
def lowerCase (text : Text) : Text :=
  text.map Char.toLower

theorem dropStart?_append (start rest : Text) : dropStart? start (start ++ rest) = some rest := by
  induction start with
  | nil => rfl
  | cons char start inductionHypothesis => simp [dropStart?, inductionHypothesis]

theorem eq_append_of_dropStart? {start text rest : Text}
    (found : dropStart? start text = some rest) : text = start ++ rest := by
  induction start generalizing text with
  | nil => simpa [dropStart?] using found
  | cons expected start inductionHypothesis =>
      cases text with
      | nil => simp [dropStart?] at found
      | cons char text =>
          simp only [dropStart?] at found
          split at found
          · next same => rw [same, inductionHypothesis found, List.cons_append]
          · contradiction

/-- The decimal digits of a number spell the number. -/
theorem readDecimal?_decimal (number : Nat) : readDecimal? (decimal number) = some number := by
  have nonempty : (decimal number).isEmpty = false :=
    List.isEmpty_eq_false_iff.mpr Nat.toDigits_ne_nil
  have digits : (decimal number).all Char.isDigit = true :=
    List.all_eq_true.mpr fun _ member => Nat.isDigit_of_mem_toDigits (by decide) (by decide) member
  have value : (decimal number).foldl (fun number digit => number * 10 + digitValue digit) 0 =
      number := by
    simpa only [Nat.ofDigitChars_eq_foldl, Nat.mul_comm 10, decimal, digitValue] using
      Nat.ofDigitChars_ten_toDigits (n := number)
  simp [readDecimal?, nonempty, digits, value]

theorem join_cons_cons (separator piece second : Text) (pieces : List Text) :
    join separator (piece :: second :: pieces) =
      piece ++ separator ++ join separator (second :: pieces) := by
  simp [join, List.intercalate, List.intersperse]

theorem split_ne_nil (separator : Char) (text : Text) : split separator text ≠ [] := by
  cases text with
  | nil => simp [split]
  | cons char rest =>
      simp only [split]
      split
      · simp
      · split <;> simp

/-- Joining the pieces of a text with the separator gives the text back. -/
theorem join_split (separator : Char) (text : Text) :
    join [separator] (split separator text) = text := by
  induction text with
  | nil => rfl
  | cons char rest inductionHypothesis =>
      have nonempty := split_ne_nil separator rest
      simp only [split]
      split
      · next same =>
          subst same
          cases pieces : split char rest with
          | nil => exact absurd pieces nonempty
          | cons piece pieces' =>
              rw [pieces] at inductionHypothesis
              simp [join, List.intercalate, List.intersperse] at inductionHypothesis ⊢
              exact inductionHypothesis
      · split
        · next empty => exact absurd empty nonempty
        · next piece pieces equation =>
            rw [equation] at inductionHypothesis
            cases pieces with
            | nil => simpa [join, List.intercalate] using inductionHypothesis
            | cons second others =>
                simp [join, List.intercalate] at inductionHypothesis ⊢
                exact inductionHypothesis

theorem not_mem_of_mem_split {separator : Char} {text piece : Text}
    (member : piece ∈ split separator text) : separator ∉ piece := by
  induction text generalizing piece with
  | nil => simp_all [split]
  | cons char rest inductionHypothesis =>
      simp only [split] at member
      split at member
      · rcases List.mem_cons.mp member with rfl | later
        · exact List.not_mem_nil
        · exact inductionHypothesis later
      · next different =>
          split at member
          · next empty => exact absurd empty (split_ne_nil separator rest)
          · next first pieces equation =>
              rw [equation] at inductionHypothesis
              rcases List.mem_cons.mp member with rfl | later
              · have apart := inductionHypothesis List.mem_cons_self
                simp [apart, Ne.symm different]
              · exact inductionHypothesis (List.mem_cons_of_mem first later)

/-- A text without the separator is the first piece. -/
theorem split_append_of_not_mem {separator : Char} {piece : Text} (apart : separator ∉ piece)
    (rest : Text) : split separator (piece ++ separator :: rest) = piece :: split separator rest := by
  induction piece with
  | nil => simp [split]
  | cons char piece inductionHypothesis =>
      obtain ⟨different, others⟩ := List.ne_and_not_mem_of_not_mem_cons apart
      simp [split, Ne.symm different, inductionHypothesis others]

theorem split_of_not_mem {separator : Char} {piece : Text} (apart : separator ∉ piece) :
    split separator piece = [piece] := by
  induction piece with
  | nil => rfl
  | cons char piece inductionHypothesis =>
      obtain ⟨different, others⟩ := List.ne_and_not_mem_of_not_mem_cons apart
      simp [split, Ne.symm different, inductionHypothesis others]

/-- Pieces without the separator are found again in the text that they are joined to. -/
theorem split_join {separator : Char} {pieces : List Text} (nonempty : pieces ≠ [])
    (apart : ∀ piece ∈ pieces, separator ∉ piece) :
    split separator (join [separator] pieces) = pieces := by
  induction pieces with
  | nil => contradiction
  | cons piece pieces inductionHypothesis =>
      have first := apart piece List.mem_cons_self
      cases pieces with
      | nil => simpa [join, List.intercalate] using split_of_not_mem first
      | cons second others =>
          have rest := inductionHypothesis (List.cons_ne_nil second others)
            fun other member => apart other (List.mem_cons_of_mem piece member)
          rw [join_cons_cons, List.append_assoc, List.singleton_append,
            split_append_of_not_mem first, rest]

/-- The characters that Unicode calls white space. -/
def isBlank (char : Char) : Bool :=
  let code := char.toNat
  (9 ≤ code && code ≤ 13) || code == 0x20 || code == 0x85 || code == 0xa0 || code == 0x1680 ||
    (0x2000 ≤ code && code ≤ 0x200a) || code == 0x2028 || code == 0x2029 || code == 0x202f ||
    code == 0x205f || code == 0x3000

def trimEnd (text : Text) : Text :=
  (text.reverse.dropWhile isBlank).reverse

def trim (text : Text) : Text :=
  trimEnd (text.dropWhile isBlank)

/-- A line that was ended by a line feed loses one carriage return before it. -/
def dropReturn (line : Text) : Text :=
  if line.getLast? = some '\r' then line.dropLast else line

/-- The lines that the pieces between line feeds make up; the last piece is a line only when it is not
empty. -/
def linesOfPieces (pieces : List Text) : List Text :=
  let ended := pieces.dropLast.map dropReturn
  match pieces.getLast? with
  | none | some [] => ended
  | some last => ended ++ [last]

/-- The lines of a text, each of which ends at a line feed or at the end of the text. -/
def lines (text : Text) : List Text :=
  linesOfPieces (split '\n' text)

/-- The lines of a text with their numbers, counted from one. A number is meant to fit in 32 bits:
texts of more lines than that are left out of account. -/
def numberedLines (text : Text) : List (Text × Nat) :=
  (lines text).zipIdx 1

end Text

end BranchCatalog
