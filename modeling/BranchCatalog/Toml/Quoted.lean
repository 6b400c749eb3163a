import BranchCatalog.Text.Basic

namespace BranchCatalog.Toml

/-- A character that may stand in a comment and in most quoted texts: no control character but the
tab. -/
def isPlain (char : Char) : Bool :=
  char == '\t' || (32 ≤ char.toNat && char.toNat != 127)

def hexValue? (digit : Char) : Option Nat :=
  if '0' ≤ digit ∧ digit ≤ '9' then some (digit.toNat - '0'.toNat)
  else if 'a' ≤ digit ∧ digit ≤ 'f' then some (digit.toNat - 'a'.toNat + 10)
  else if 'A' ≤ digit ∧ digit ≤ 'F' then some (digit.toNat - 'A'.toNat + 10)
  else none

/-- The character whose code point hexadecimal digits spell. -/
def codePoint? (digits : Text) : Option Char := do
  let values ← digits.mapM hexValue?
  let code := values.foldl (fun code value => code * 16 + value) 0
  if code.isValidChar then some (Char.ofNat code) else none

/-- The character that a backslash and a single character stand for. -/
def shortEscape? : Char → Option Char
  | 'b' => some '\x08'
  | 't' => some '\t'
  | 'n' => some '\n'
  | 'f' => some '\x0c'
  | 'r' => some '\r'
  | '"' => some '"'
  | '\\' => some '\\'
  | _ => none

/-- Reads the rest of an escape after its backslash. -/
def readEscape? : Text → Option (Char × Text)
  | 'u' :: a :: b :: c :: d :: rest => (codePoint? [a, b, c, d]).map fun char => (char, rest)
  | 'U' :: a :: b :: c :: d :: e :: f :: g :: h :: rest =>
    (codePoint? [a, b, c, d, e, f, g, h]).map fun char => (char, rest)
  | char :: rest => (shortEscape? char).map fun char => (char, rest)
  | [] => none

theorem readEscape?_length_lt {text rest : Text} {char : Char}
    (found : readEscape? text = some (char, rest)) : rest.length < text.length := by
  unfold readEscape? at found
  split at found
  all_goals
    first
    | contradiction
    | obtain ⟨_, _, equation⟩ := Option.map_eq_some_iff.mp found
      obtain ⟨-, rfl⟩ := Prod.mk.inj equation
      simp only [List.length_cons]
      omega

/-- Puts a character before the text that was read. -/
def prepend (char : Char) (read : Option (Text × Text)) : Option (Text × Text) :=
  read.map fun (text, rest) => (char :: text, rest)

/-- Reads a basic text up to its closing quote. -/
def readBasic (text : Text) : Option (Text × Text) :=
  match text with
  | [] => none
  | '"' :: rest => some ([], rest)
  | '\\' :: rest =>
    match _found : readEscape? rest with
    | none => none
    | some (char, after) => prepend char (readBasic after)
  | char :: rest => if isPlain char then prepend char (readBasic rest) else none
termination_by text.length
decreasing_by
  · have shorter := readEscape?_length_lt _found
    simp only [List.length_cons]
    omega
  · simp

/-- Reads a literal text up to its closing quote; nothing is escaped in it. -/
def readLiteral : Text → Option (Text × Text)
  | [] => none
  | '\'' :: rest => some ([], rest)
  | char :: rest => if isPlain char then prepend char (readLiteral rest) else none

/-- A line end after the opening quotes does not belong to the text. -/
def dropLineEnd : Text → Text
  | '\n' :: rest => rest
  | '\r' :: '\n' :: rest => rest
  | rest => rest

/-- The end of a text on several lines: up to two more quotes before the closing ones belong to it. -/
def closeLong (quote : Char) (rest : Text) : Text × Text :=
  match rest with
  | first :: second :: after =>
    if first = quote then
      if second = quote then ([quote, quote], after) else ([quote], second :: after)
    else ([], rest)
  | [first] => if first = quote then ([quote], []) else ([], rest)
  | [] => ([], [])

def isLayout (char : Char) : Bool :=
  char == ' ' || char == '\t'

/-- Skips spaces, tabs and line ends. -/
def skipLayoutLines : Text → Text
  | [] => []
  | '\r' :: '\n' :: rest => skipLayoutLines rest
  | char :: rest => if isLayout char || char == '\n' then skipLayoutLines rest else char :: rest

theorem skipLayoutLines_length_le (text : Text) : (skipLayoutLines text).length ≤ text.length := by
  fun_induction skipLayoutLines text <;> simp_all <;> omega

/-- After a backslash, a line end with the layout around it joins two lines. -/
def joinsLines? (text : Text) : Option Text :=
  match text.dropWhile isLayout with
  | '\n' :: rest => some (skipLayoutLines rest)
  | '\r' :: '\n' :: rest => some (skipLayoutLines rest)
  | _ => none

theorem joinsLines?_length_lt {text rest : Text} (found : joinsLines? text = some rest) :
    rest.length < text.length := by
  have shorter : (text.dropWhile isLayout).length ≤ text.length :=
    (List.dropWhile_sublist isLayout).length_le
  unfold joinsLines? at found
  split at found
  · next after equation =>
      obtain rfl := Option.some.inj found
      have skipped := skipLayoutLines_length_le after
      simp only [equation, List.length_cons] at shorter
      omega
  · next after equation =>
      obtain rfl := Option.some.inj found
      have skipped := skipLayoutLines_length_le after
      simp only [equation, List.length_cons] at shorter
      omega
  · contradiction

/-- Reads a basic text on several lines up to its closing quotes. -/
def readLongBasic (text : Text) : Option (Text × Text) :=
  match text with
  | [] => none
  | '"' :: '"' :: '"' :: rest => some (closeLong '"' rest)
  | '\\' :: rest =>
    match _joined : joinsLines? rest with
    | some after => readLongBasic after
    | none =>
      match _found : readEscape? rest with
      | none => none
      | some (char, after) => prepend char (readLongBasic after)
  | '\n' :: rest => prepend '\n' (readLongBasic rest)
  | '\r' :: '\n' :: rest => prepend '\n' (readLongBasic rest)
  | char :: rest => if isPlain char then prepend char (readLongBasic rest) else none
termination_by text.length
decreasing_by
  · have shorter := joinsLines?_length_lt _joined
    simp only [List.length_cons]
    omega
  · have shorter := readEscape?_length_lt _found
    simp only [List.length_cons]
    omega
  all_goals (simp only [List.length_cons]; omega)

/-- Reads a literal text on several lines up to its closing quotes. -/
def readLongLiteral : Text → Option (Text × Text)
  | [] => none
  | '\'' :: '\'' :: '\'' :: rest => some (closeLong '\'' rest)
  | '\n' :: rest => prepend '\n' (readLongLiteral rest)
  | '\r' :: '\n' :: rest => prepend '\n' (readLongLiteral rest)
  | char :: rest => if isPlain char then prepend char (readLongLiteral rest) else none

def readQuoted : Text → Option (Text × Text)
  | '"' :: '"' :: '"' :: rest => readLongBasic (dropLineEnd rest)
  | '"' :: rest => readBasic rest
  | '\'' :: '\'' :: '\'' :: rest => readLongLiteral (dropLineEnd rest)
  | '\'' :: rest => readLiteral rest
  | _ => none

/-- Holds when a character cannot stand for itself in any form: a control character, but neither a tab
nor a line feed. -/
def needsEscape (char : Char) : Bool :=
  !isPlain char && char != '\n'

/-- The length of the longest run of a character. -/
def longestRun (wanted : Char) (text : Text) : Nat :=
  (text.foldl (fun (longest, current) char =>
    if char = wanted then (max longest (current + 1), current + 1) else (longest, 0)) (0, 0)).1

/-- The forms of a quoted text. -/
inductive QuoteForm where
  | basic
  | literal
  | longBasic
  | longLiteral
  deriving DecidableEq, Repr

/-- The form in which a text is written: the first that needs no escapes but for tabs, or else a basic
one. -/
def formOf (text : Text) : QuoteForm :=
  let escapes := text.any needsEscape
  let backslash := text.contains '\\'
  let several := text.contains '\n'
  if !escapes && !backslash && !several && !text.contains '"' then .basic
  else if !escapes && !several && !text.contains '\'' then .literal
  else if !escapes && !backslash && longestRun '"' text ≤ 2 then .longBasic
  else if !escapes && longestRun '\'' text ≤ 2 then .longLiteral
  else if several then .longBasic
  else .basic

/-- The upper-case hexadecimal digit of a value below sixteen. -/
def hexDigit (value : Nat) : Char :=
  if value < 10 then Char.ofNat ('0'.toNat + value) else Char.ofNat ('A'.toNat + (value - 10))

/-- What stands for a character in a basic text; a quote is escaped when too many would stand in a
row, and a line feed stands for itself on several lines only. -/
def escapeChar (long quoteEscapes : Bool) (char : Char) : Text :=
  if char = '"' then (if quoteEscapes then ['\\', '"'] else ['"'])
  else if char = '\x08' then ['\\', 'b']
  else if char = '\t' then ['\\', 't']
  else if char = '\n' then (if long then ['\n'] else ['\\', 'n'])
  else if char = '\x0c' then ['\\', 'f']
  else if char = '\r' then ['\\', 'r']
  else if char = '\\' then ['\\', '\\']
  else if needsEscape char then
    ['\\', 'u', '0', '0', hexDigit (char.toNat / 16), hexDigit (char.toNat % 16)]
  else [char]

/-- Writes the characters of a basic text; `quotes` counts the quotes that stand in a row just before
them. -/
def writeBasicFrom (long : Bool) (quotes : Nat) : Text → Text
  | [] => []
  | char :: rest =>
    let allowed := if long then 2 else 0
    let quoteEscapes := allowed ≤ quotes
    let written := escapeChar long quoteEscapes char
    let quotes := if written = ['"'] then quotes + 1 else 0
    written ++ writeBasicFrom long quotes rest

/-- On several lines a text starts on a line of its own when it has a line feed. -/
def openingLineEnd (text : Text) : Text :=
  if text.contains '\n' then ['\n'] else []

def QuoteForm.write (form : QuoteForm) (text : Text) : Text :=
  match form with
  | basic => '"' :: writeBasicFrom false 0 text ++ ['"']
  | literal => '\'' :: text ++ ['\'']
  | longBasic =>
    ['"', '"', '"'] ++ openingLineEnd text ++ writeBasicFrom true 0 text ++ ['"', '"', '"']
  | longLiteral => ['\'', '\'', '\''] ++ openingLineEnd text ++ text ++ ['\'', '\'', '\'']

def writeQuoted (text : Text) : Text :=
  (formOf text).write text

end BranchCatalog.Toml
