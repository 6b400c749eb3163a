import BranchCatalog.Text.Word

namespace BranchCatalog.Scan

/-- The text after the quote that closes a string literal whose opening quote has been read; a
backslash keeps the character after it from closing the literal. -/
def afterLiteral? : Text → Option Text
  | [] => none
  | '\\' :: [] => none
  | '\\' :: _ :: rest => afterLiteral? rest
  | char :: rest => if char = '"' then some rest else afterLiteral? rest

theorem afterLiteral?_length_lt {text after : Text} (found : afterLiteral? text = some after) :
    after.length < text.length := by
  fun_induction afterLiteral? text <;> grind [afterLiteral?]

/-- The line with every complete string literal emptied; a quote that opens no complete literal
stays. -/
def withoutLiterals : Text → Text
  | [] => []
  | char :: rest =>
    if char = '"' then
      match _found : afterLiteral? rest with
      | some after => '"' :: '"' :: withoutLiterals after
      | none => char :: withoutLiterals rest
    else char :: withoutLiterals rest
termination_by text => text.length
decreasing_by
  all_goals first
    | exact Nat.lt_succ_of_lt (afterLiteral?_length_lt _found)
    | exact Nat.lt_succ_self _

theorem dropWhile_length_le {Element : Type} (accepted : Element → Bool) (items : List Element) :
    (items.dropWhile accepted).length ≤ items.length :=
  (List.dropWhile_sublist accepted).length_le

/-- Reads the identifiers of a member chain, given the first character of the first one. -/
def chainFrom (first : Char) (text : Text) : List Text × Text :=
  let identifier := first :: text.takeWhile Text.isWord
  match _found : text.dropWhile Text.isWord with
  | '.' :: second :: rest =>
    if Text.isIdentifierStart second then
      let (identifiers, rest) := chainFrom second rest
      (identifier :: identifiers, rest)
    else ([identifier], '.' :: second :: rest)
  | rest => ([identifier], rest)
termination_by text.length
decreasing_by
  have shorter := dropWhile_length_le Text.isWord text
  rw [_found] at shorter
  simp only [List.length_cons] at shorter
  omega

theorem chainFrom_length_le (first : Char) (text : Text) :
    (chainFrom first text).2.length ≤ text.length := by
  fun_induction chainFrom first text <;> grind [dropWhile_length_le]

/-- The member chains of a line from left to right, each as the list of its identifiers. -/
def chains : Text → List (List Text)
  | [] => []
  | char :: rest =>
    if Text.isIdentifierStart char then
      (chainFrom char rest).1 :: chains (chainFrom char rest).2
    else chains rest
termination_by text => text.length
decreasing_by
  · exact Nat.lt_succ_of_le (chainFrom_length_le char rest)
  · exact Nat.lt_succ_self _

/-- The identifiers of a member chain, then the starts of the chain before each dot, then the whole
chain. -/
def chainTokens (identifiers : List Text) : List Text :=
  identifiers ++ (List.range identifiers.length).map fun count =>
    Text.join ['.'] (identifiers.take (count + 1))

/-- The tokens of a line in the order of their first appearance, each once. -/
def lineTokens (line : Text) : List Text :=
  ((chains (withoutLiterals line)).flatMap chainTokens).eraseDups

end BranchCatalog.Scan
