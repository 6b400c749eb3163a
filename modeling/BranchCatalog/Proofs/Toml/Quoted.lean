import BranchCatalog.Toml.Quoted
import Mathlib.Data.List.Infix

namespace BranchCatalog.Toml

section Escape

/-- The escape of a control character names its code point. -/
theorem codePoint?_hexDigit {char : Char} (small : char.toNat < 128) :
    codePoint? ['0', '0', hexDigit (char.toNat / 16), hexDigit (char.toNat % 16)] = some char := by
  have all : ∀ code : Fin 128,
      codePoint? ['0', '0', hexDigit (code.val / 16), hexDigit (code.val % 16)] =
        some (Char.ofNat code.val) := by decide +kernel
  simpa [Char.ofNat_toNat] using all ⟨char.toNat, small⟩

theorem toNat_lt_of_needsEscape {char : Char} (needs : needsEscape char = true) : char.toNat < 128 := by
  simp only [needsEscape, isPlain, Bool.and_eq_true, Bool.not_eq_true', Bool.or_eq_false_iff,
    Bool.and_eq_false_iff, decide_eq_false_iff_not, bne_eq_false_iff_eq] at needs
  omega

/-- What a backslash is written before stands for a character, and joins no lines. -/
def Spells (spelled : Text) (char : Char) : Prop :=
  ∀ rest, readEscape? (spelled ++ rest) = some (char, rest) ∧ joinsLines? (spelled ++ rest) = none

/-- A character that stands for itself in a basic text. -/
def StandsForItself (long quoteEscapes : Bool) (char : Char) : Prop :=
  char = '"' ∧ quoteEscapes = false ∨ char = '\n' ∧ long = true ∨
    char ≠ '"' ∧ char ≠ '\\' ∧ char ≠ '\n' ∧ isPlain char = true

theorem spells_short {mark char : Char} (known : shortEscape? mark = some char)
    (shown : isLayout mark = false ∧ mark ≠ '\n' ∧ mark ≠ '\r' ∧ mark ≠ 'u' ∧ mark ≠ 'U') :
    Spells [mark] char := by
  obtain ⟨layout, lineFeed, carriageReturn, short, long⟩ := shown
  intro rest
  constructor
  · rw [List.singleton_append, readEscape?, known]
    · rfl
    · exact fun _ _ _ _ _ same => absurd same short
    · exact fun _ _ _ _ _ _ _ _ _ same => absurd same long
  · simp [joinsLines?, layout, lineFeed, carriageReturn]

/-- An escape with four digits spells a small character. -/
theorem spells_codePoint {char : Char} (small : char.toNat < 128) :
    Spells ['u', '0', '0', hexDigit (char.toNat / 16), hexDigit (char.toNat % 16)] char := by
  intro rest
  constructor
  · simp only [List.cons_append, List.nil_append, readEscape?, codePoint?_hexDigit small, Option.map_some]
  · have layout : isLayout 'u' = false := by decide
    simp [joinsLines?, layout]

/-- In a basic text a character stands for itself, or an escape stands for it. -/
theorem escapeChar_cases (long quoteEscapes : Bool) (char : Char) :
    escapeChar long quoteEscapes char = [char] ∧ StandsForItself long quoteEscapes char ∨
      ∃ spelled, escapeChar long quoteEscapes char = '\\' :: spelled ∧ Spells spelled char := by
  unfold escapeChar
  split
  · next quote =>
      subst quote
      cases quoteEscapes with
      | true => exact Or.inr ⟨['"'], rfl, spells_short rfl (by decide)⟩
      | false => exact Or.inl ⟨rfl, Or.inl ⟨rfl, rfl⟩⟩
  · next noQuote =>
      split
      · next same => exact Or.inr ⟨['b'], rfl, same ▸ spells_short rfl (by decide)⟩
      split
      · next same => exact Or.inr ⟨['t'], rfl, same ▸ spells_short rfl (by decide)⟩
      split
      · next same =>
          subst same
          cases long with
          | true => exact Or.inl ⟨rfl, Or.inr (Or.inl ⟨rfl, rfl⟩)⟩
          | false => exact Or.inr ⟨['n'], rfl, spells_short rfl (by decide)⟩
      · next noLineFeed =>
          split
          · next same => exact Or.inr ⟨['f'], rfl, same ▸ spells_short rfl (by decide)⟩
          split
          · next same => exact Or.inr ⟨['r'], rfl, same ▸ spells_short rfl (by decide)⟩
          split
          · next same =>
              subst same
              exact Or.inr ⟨['\\'], rfl, spells_short rfl (by decide)⟩
          · next noBackslash =>
              split
              · next needs => exact Or.inr ⟨_, rfl, spells_codePoint (toNat_lt_of_needsEscape needs)⟩
              · next free =>
                  have plain : isPlain char = true := by
                    simpa [needsEscape, noLineFeed] using free
                  exact Or.inl ⟨rfl, Or.inr (Or.inr ⟨noQuote, noBackslash, noLineFeed, plain⟩)⟩

end Escape

section Basic

variable {char : Char} {rest spelled : Text}

theorem readBasic_quote (rest : Text) : readBasic ('"' :: rest) = some ([], rest) := by
  rw [readBasic]

/-- An escape is read as the character that it spells. -/
theorem readBasic_escape (spells : Spells spelled char) (rest : Text) :
    readBasic ('\\' :: spelled ++ rest) = prepend char (readBasic rest) := by
  rw [List.cons_append, readBasic]
  split
  · next none =>
      rw [(spells rest).1] at none
      contradiction
  · next found =>
      rw [(spells rest).1] at found
      obtain ⟨rfl, rfl⟩ := Prod.mk.inj (Option.some.inj found)
      rfl

theorem readBasic_plain (noQuote : char ≠ '"') (noBackslash : char ≠ '\\')
    (plain : isPlain char = true) (rest : Text) :
    readBasic (char :: rest) = prepend char (readBasic rest) := by
  rw [readBasic, if_pos plain]
  · exact fun same => absurd same noQuote
  · exact fun same => absurd same noBackslash

/-- How a character is written in a basic text on one line: as itself when it is plain, but no quote and no
backslash, or else as an escape. -/
theorem writeBasicFrom_line_cases (quotes : Nat) (char : Char) (text : Text) :
    char ≠ '"' ∧ char ≠ '\\' ∧ isPlain char = true ∧
        writeBasicFrom false quotes (char :: text) = char :: writeBasicFrom false 0 text ∨
      ∃ spelled, Spells spelled char ∧
        writeBasicFrom false quotes (char :: text) = '\\' :: spelled ++ writeBasicFrom false 0 text := by
  rcases escapeChar_cases false true char with ⟨written, itself⟩ | ⟨spelled, written, spells⟩
  · rcases itself with ⟨-, unescaped⟩ | ⟨-, long⟩ | ⟨noQuote, noBackslash, -, plain⟩
    · contradiction
    · contradiction
    · exact Or.inl ⟨noQuote, noBackslash, plain, by simp [writeBasicFrom, written, noQuote]⟩
  · exact Or.inr ⟨spelled, spells, by simp [writeBasicFrom, written]⟩

/-- A basic text is read up to the quote behind it. -/
theorem readBasic_writeBasicFrom (quotes : Nat) (text rest : Text) :
    readBasic (writeBasicFrom false quotes text ++ '"' :: rest) = some (text, rest) := by
  induction text generalizing quotes with
  | nil => exact readBasic_quote rest
  | cons char text inductionHypothesis =>
      rcases writeBasicFrom_line_cases quotes char text with
        ⟨noQuote, noBackslash, plain, written⟩ | ⟨spelled, spells, written⟩
      · rw [written, List.cons_append, readBasic_plain noQuote noBackslash plain, inductionHypothesis]
        rfl
      · rw [written, List.append_assoc, readBasic_escape spells, inductionHypothesis]
        rfl

end Basic

section Long

variable {char quote : Char} {rest spelled text : Text}

theorem closeLong_of_head?_ne (ends : rest.head? ≠ some quote) : closeLong quote rest = ([], rest) := by
  cases rest with
  | nil => rfl
  | cons first rest =>
      have different : first ≠ quote := by simpa using ends
      cases rest with
      | nil => rw [closeLong, if_neg different]
      | cons => rw [closeLong, if_neg different]

/-- A single quote behind the closing ones belongs to the text. -/
theorem closeLong_one (ends : rest.head? ≠ some quote) :
    closeLong quote (quote :: rest) = ([quote], rest) := by
  cases rest with
  | nil => rw [closeLong, if_pos rfl]
  | cons first rest =>
      have different : first ≠ quote := by simpa using ends
      rw [closeLong, if_pos rfl, if_neg different]

theorem closeLong_two (quote : Char) (rest : Text) :
    closeLong quote (quote :: quote :: rest) = ([quote, quote], rest) := by
  rw [closeLong, if_pos rfl, if_pos rfl]

/-- A reader of texts on several lines takes a quote for itself unless two more follow, and three quotes for
the end of the text. -/
structure TellsQuotes (read : Text → Option (Text × Text)) (quote : Char) : Prop where
  close : ∀ rest, read (quote :: quote :: quote :: rest) = some (closeLong quote rest)
  single : ∀ rest, ¬ [quote, quote] <+: rest → read (quote :: rest) = prepend quote (read rest)

variable {read : Text → Option (Text × Text)}

theorem TellsQuotes.read_close (tells : TellsQuotes read quote) (ends : rest.head? ≠ some quote) :
    read ([quote, quote, quote] ++ rest) = some ([], rest) := by
  rw [← closeLong_of_head?_ne ends]
  exact tells.close rest

/-- One more quote in front is read as one, also when it stands next to those at the end. -/
theorem TellsQuotes.read_cons (tells : TellsQuotes read quote) (ends : rest.head? ≠ some quote)
    {written : Text} (few : ¬ [quote, quote] <+: written)
    (found : read (written ++ ([quote, quote, quote] ++ rest)) = some (text, rest)) :
    read (quote :: (written ++ ([quote, quote, quote] ++ rest))) = some (quote :: text, rest) := by
  -- only what is written as no quote or as one quote runs into the closing ones
  match written, few, found with
  | [], _, found =>
      rw [List.nil_append, tells.read_close ends] at found
      cases found
      exact (tells.close _).trans (congrArg some (closeLong_one ends))
  | [second], few, found =>
      by_cases same : second = quote
      · subst same
        rw [List.singleton_append] at found
        have one : read (second :: ([second, second, second] ++ rest)) = some ([second], rest) :=
          (tells.close _).trans (congrArg some (closeLong_one ends))
        rw [one] at found
        cases found
        exact (tells.close _).trans (congrArg some (closeLong_two second rest))
      · rw [tells.single _ (by simp [Ne.symm same]), found]
        rfl
  | second :: third :: written, few, found =>
      rw [tells.single _ (by simpa using few), found]
      rfl

/-- An escape is read in a basic text of several lines as in one of a single line. -/
theorem readLongBasic_escape (spells : Spells spelled char) (rest : Text) :
    readLongBasic ('\\' :: spelled ++ rest) = prepend char (readLongBasic rest) := by
  rw [List.cons_append, readLongBasic]
  split
  · next joined =>
      rw [(spells rest).2] at joined
      contradiction
  · split
    · next none =>
        rw [(spells rest).1] at none
        contradiction
    · next found =>
        rw [(spells rest).1] at found
        obtain ⟨rfl, rfl⟩ := Prod.mk.inj (Option.some.inj found)
        rfl

theorem readLongBasic_lineFeed (rest : Text) :
    readLongBasic ('\n' :: rest) = prepend '\n' (readLongBasic rest) := by
  rw [readLongBasic]

theorem ne_return_of_isPlain (plain : isPlain char = true) : char ≠ '\r' := by
  rintro rfl
  contradiction

/-- A plain character is read as it is, and so is a quote with no two others behind it. -/
theorem readLongBasic_plain (noBackslash : char ≠ '\\') (noLineFeed : char ≠ '\n')
    (plain : isPlain char = true) (alone : char = '"' → ¬ ['"', '"'] <+: rest) :
    readLongBasic (char :: rest) = prepend char (readLongBasic rest) := by
  rw [readLongBasic, if_pos plain]
  · rintro after rfl rfl
    exact alone rfl ⟨after, rfl⟩
  · exact fun same => absurd same noBackslash
  · exact fun same => absurd same noLineFeed
  · exact fun _ same => absurd same (ne_return_of_isPlain plain)

/-- A basic text of several lines tells its quotes from those that close it. -/
theorem tellsQuotes_readLongBasic : TellsQuotes readLongBasic '"' where
  close rest := by rw [readLongBasic]
  single rest few := readLongBasic_plain (by decide) (by decide) (by decide) fun _ => few

/-- A plain character of a literal text is read as it is, and so is a quote with no two others behind it. -/
theorem readLongLiteral_plain (noLineFeed : char ≠ '\n') (plain : isPlain char = true)
    (alone : char = '\'' → ¬ ['\'', '\''] <+: rest) :
    readLongLiteral (char :: rest) = prepend char (readLongLiteral rest) := by
  rw [readLongLiteral, if_pos plain]
  · rintro after rfl rfl
    exact alone rfl ⟨after, rfl⟩
  · exact fun same => absurd same noLineFeed
  · exact fun _ same => absurd same (ne_return_of_isPlain plain)

/-- A literal text of several lines tells its quotes from those that close it. -/
theorem tellsQuotes_readLongLiteral : TellsQuotes readLongLiteral '\'' where
  close rest := by rw [readLongLiteral]
  single rest few := readLongLiteral_plain (by decide) (by decide) fun _ => few

/-- How a character is written in a basic text on several lines: a quote after fewer than two others and a line
feed as themselves, other plain characters too, and all else as an escape. -/
theorem writeBasicFrom_cases (quotes : Nat) (char : Char) (text : Text) :
    char = '"' ∧ quotes < 2 ∧
        writeBasicFrom true quotes (char :: text) = '"' :: writeBasicFrom true (quotes + 1) text ∨
      (char = '\n' ∨ char ≠ '"' ∧ char ≠ '\\' ∧ char ≠ '\n' ∧ isPlain char = true) ∧
        writeBasicFrom true quotes (char :: text) = char :: writeBasicFrom true 0 text ∨
      ∃ spelled, Spells spelled char ∧
        writeBasicFrom true quotes (char :: text) = '\\' :: spelled ++ writeBasicFrom true 0 text := by
  rcases escapeChar_cases true (decide (2 ≤ quotes)) char with
    ⟨written, itself⟩ | ⟨spelled, written, spells⟩
  · rcases itself with ⟨rfl, unescaped⟩ | ⟨rfl, -⟩ | ⟨noQuote, others⟩
    · have few : quotes < 2 := by simpa using unescaped
      exact Or.inl ⟨rfl, few, by simp [writeBasicFrom, written]⟩
    · exact Or.inr (Or.inl ⟨Or.inl rfl, by simp [writeBasicFrom, written]⟩)
    · refine Or.inr (Or.inl ⟨Or.inr ⟨noQuote, others⟩, ?_⟩)
      simp [writeBasicFrom, written, noQuote]
  · exact Or.inr (Or.inr ⟨spelled, spells, by simp [writeBasicFrom, written]⟩)

theorem lt_two_of_starting_quote {quotes : Nat} (start : ['"'] <+: writeBasicFrom true quotes text) :
    quotes < 2 := by
  cases text with
  | nil => simp [writeBasicFrom] at start
  | cons char text =>
      rcases writeBasicFrom_cases quotes char text with ⟨-, few, -⟩ | ⟨itself, written⟩ | ⟨_, -, written⟩
      · exact few
      · rw [written] at start
        rcases itself with rfl | ⟨noQuote, -⟩
        · simp at start
        · simp [Ne.symm noQuote] at start
      · simp [written] at start

/-- Two quotes are not written behind another one without an escape. -/
theorem eq_zero_of_starting_quotes {quotes : Nat}
    (start : ['"', '"'] <+: writeBasicFrom true quotes text) : quotes = 0 := by
  cases text with
  | nil => simp [writeBasicFrom] at start
  | cons char text =>
      rcases writeBasicFrom_cases quotes char text with
        ⟨-, -, written⟩ | ⟨itself, written⟩ | ⟨_, -, written⟩
      · rw [written, List.cons_prefix_cons] at start
        have few := lt_two_of_starting_quote start.2
        omega
      · rw [written] at start
        rcases itself with rfl | ⟨noQuote, -⟩
        · simp at start
        · simp [Ne.symm noQuote] at start
      · simp [written] at start

/-- A basic text on several lines is read up to the quotes behind it. -/
theorem readLongBasic_writeBasicFrom (quotes : Nat) (text : Text) (ends : rest.head? ≠ some '"') :
    readLongBasic (writeBasicFrom true quotes text ++ (['"', '"', '"'] ++ rest)) = some (text, rest) := by
  induction text generalizing quotes with
  | nil => exact tellsQuotes_readLongBasic.read_close ends
  | cons char text inductionHypothesis =>
      rcases writeBasicFrom_cases quotes char text with
        ⟨rfl, -, written⟩ | ⟨itself, written⟩ | ⟨spelled, spells, written⟩
      · rw [written]
        refine tellsQuotes_readLongBasic.read_cons ends (fun start => ?_) (inductionHypothesis _)
        exact Nat.succ_ne_zero quotes (eq_zero_of_starting_quotes start)
      · rw [written, List.cons_append]
        rcases itself with rfl | ⟨noQuote, noBackslash, noLineFeed, plain⟩
        · rw [readLongBasic_lineFeed, inductionHypothesis]
          rfl
        · rw [readLongBasic_plain noBackslash noLineFeed plain fun same => absurd same noQuote,
            inductionHypothesis]
          rfl
      · rw [written, List.append_assoc, readLongBasic_escape spells, inductionHypothesis]
        rfl

/-- A literal text on several lines is read up to the quotes behind it. -/
theorem readLongLiteral_append (free : ∀ char ∈ text, needsEscape char = false)
    (few : ¬ ['\'', '\'', '\''] <:+: text) (ends : rest.head? ≠ some '\'') :
    readLongLiteral (text ++ (['\'', '\'', '\''] ++ rest)) = some (text, rest) := by
  induction text with
  | nil => exact tellsQuotes_readLongLiteral.read_close ends
  | cons char text inductionHypothesis =>
      obtain ⟨itself, others⟩ := List.forall_mem_cons.mp free
      have found := inductionHypothesis others fun inside => few (inside.trans (List.suffix_cons _ _).isInfix)
      rw [List.cons_append]
      by_cases quote : char = '\''
      · subst quote
        refine tellsQuotes_readLongLiteral.read_cons ends (fun start => few ?_) found
        exact ((List.prefix_append_right_inj ['\'']).mpr start).isInfix
      · by_cases lineFeed : char = '\n'
        · subst lineFeed
          rw [readLongLiteral, found]
          rfl
        · have plain : isPlain char = true := by simpa [needsEscape, lineFeed] using itself
          rw [readLongLiteral_plain lineFeed plain fun same => absurd same quote, found]
          rfl

end Long

section Form

variable {text rest : Text}

theorem readLiteral_append (free : ∀ char ∈ text, isPlain char = true) (unquoted : '\'' ∉ text) :
    readLiteral (text ++ '\'' :: rest) = some (text, rest) := by
  induction text with
  | nil => rfl
  | cons char text inductionHypothesis =>
      obtain ⟨plain, others⟩ := List.forall_mem_cons.mp free
      obtain ⟨different, absent⟩ := List.ne_and_not_mem_of_not_mem_cons unquoted
      rw [List.cons_append, readLiteral, if_pos plain, inductionHypothesis others absent]
      · rfl
      · exact fun same => absurd same.symm different

/-- What the count of the longest run does with one more character. -/
def countRun (wanted : Char) (counts : Nat × Nat) (char : Char) : Nat × Nat :=
  if char = wanted then (max counts.1 (counts.2 + 1), counts.2 + 1) else (counts.1, 0)

theorem longestRun_eq (wanted : Char) (text : Text) :
    longestRun wanted text = (text.foldl (countRun wanted) (0, 0)).1 :=
  rfl

theorem le_foldl_countRun (wanted : Char) (counts : Nat × Nat) (text : Text) :
    counts.1 ≤ (text.foldl (countRun wanted) counts).1 := by
  induction text generalizing counts with
  | nil => exact Nat.le_refl _
  | cons char text inductionHypothesis =>
      refine Nat.le_trans ?_ (inductionHypothesis _)
      unfold countRun
      split
      · exact Nat.le_max_left _ _
      · exact Nat.le_refl _

/-- Three characters in a row are counted. -/
theorem not_infix_of_longestRun_le {wanted : Char} (few : longestRun wanted text ≤ 2) :
    ¬ [wanted, wanted, wanted] <:+: text := by
  rintro ⟨before, after, rfl⟩
  rw [longestRun_eq, List.foldl_append, List.foldl_append] at few
  have counted := Nat.le_trans (le_foldl_countRun wanted _ after) few
  simp only [List.foldl_cons, List.foldl_nil, countRun, if_true] at counted
  omega

/-- What stands behind a quoted text is no further quote. -/
def EndsQuoted (rest : Text) : Prop :=
  rest.head? ≠ some '"' ∧ rest.head? ≠ some '\''

theorem readQuoted_basic (few : ¬ ['"', '"'] <+: rest) : readQuoted ('"' :: rest) = readBasic rest := by
  rw [readQuoted]
  rintro after rfl
  exact few ⟨after, rfl⟩

theorem readQuoted_literal (few : ¬ ['\'', '\''] <+: rest) :
    readQuoted ('\'' :: rest) = readLiteral rest := by
  rw [readQuoted]
  rintro after rfl
  exact few ⟨after, rfl⟩

theorem dropLineEnd_of_head?_ne (noLineFeed : rest.head? ≠ some '\n')
    (noReturn : rest.head? ≠ some '\r') : dropLineEnd rest = rest := by
  unfold dropLineEnd
  split
  · simp at noLineFeed
  · simp at noReturn
  · rfl

/-- The line end that a text on several lines may start with is dropped, and nothing else. -/
theorem dropLineEnd_openingLineEnd (noLineFeed : '\n' ∉ text → rest.head? ≠ some '\n')
    (noReturn : '\n' ∉ text → rest.head? ≠ some '\r') :
    dropLineEnd (openingLineEnd text ++ rest) = rest := by
  unfold openingLineEnd
  split
  · rfl
  · next absent =>
      have absent : '\n' ∉ text := by simpa using absent
      exact dropLineEnd_of_head?_ne (noLineFeed absent) (noReturn absent)

theorem readQuoted_write_basic (ends : EndsQuoted rest) :
    readQuoted (QuoteForm.basic.write text ++ rest) = some (text, rest) := by
  rw [QuoteForm.write, List.cons_append, List.cons_append, List.append_assoc, List.singleton_append,
    readQuoted_basic, readBasic_writeBasicFrom]
  -- no quote is written first, but the closing one of an empty text
  cases text with
  | nil =>
      rw [writeBasicFrom, List.nil_append, List.cons_prefix_cons]
      rintro ⟨-, more, rfl⟩
      exact ends.1 rfl
  | cons char text =>
      rcases writeBasicFrom_line_cases 0 char text with ⟨noQuote, -, -, written⟩ | ⟨_, -, written⟩
      · simp [written, Ne.symm noQuote]
      · simp [written]

theorem readQuoted_write_literal (ends : EndsQuoted rest) (free : ∀ char ∈ text, isPlain char = true)
    (unquoted : '\'' ∉ text) : readQuoted (QuoteForm.literal.write text ++ rest) = some (text, rest) := by
  rw [QuoteForm.write, List.cons_append, List.cons_append, List.append_assoc, List.singleton_append,
    readQuoted_literal, readLiteral_append free unquoted]
  cases text with
  | nil =>
      rw [List.nil_append, List.cons_prefix_cons]
      rintro ⟨-, more, rfl⟩
      exact ends.2 rfl
  | cons char text =>
      rw [List.cons_append, List.cons_prefix_cons]
      rintro ⟨rfl, -⟩
      exact unquoted List.mem_cons_self

theorem head?_writeBasicFrom (absent : '\n' ∉ text) (more : Text) :
    (writeBasicFrom true 0 text ++ '"' :: more).head? ≠ some '\n' ∧
      (writeBasicFrom true 0 text ++ '"' :: more).head? ≠ some '\r' := by
  cases text with
  | nil => simp [writeBasicFrom]
  | cons char text =>
      obtain ⟨noLineFeed, -⟩ := List.ne_and_not_mem_of_not_mem_cons absent
      rcases writeBasicFrom_cases 0 char text with
        ⟨rfl, -, written⟩ | ⟨rfl | ⟨-, -, -, plain⟩, written⟩ | ⟨_, -, written⟩
      · simp [written]
      · contradiction
      · simp [written, Ne.symm noLineFeed, ne_return_of_isPlain plain]
      · simp [written]

/-- A basic text of several lines is read back. -/
theorem readQuoted_write_longBasic (ends : EndsQuoted rest) :
    readQuoted (QuoteForm.longBasic.write text ++ rest) = some (text, rest) := by
  have dropped : dropLineEnd (openingLineEnd text ++ (writeBasicFrom true 0 text ++ (['"', '"', '"'] ++ rest))) =
      writeBasicFrom true 0 text ++ (['"', '"', '"'] ++ rest) :=
    dropLineEnd_openingLineEnd (fun absent => (head?_writeBasicFrom absent _).1)
      (fun absent => (head?_writeBasicFrom absent _).2)
  have read := readLongBasic_writeBasicFrom 0 text ends.1
  rw [← dropped] at read
  simpa [QuoteForm.write, readQuoted] using read

/-- A literal text of several lines is read back. -/
theorem readQuoted_write_longLiteral (ends : EndsQuoted rest)
    (free : ∀ char ∈ text, needsEscape char = false) (few : ¬ ['\'', '\'', '\''] <:+: text) :
    readQuoted (QuoteForm.longLiteral.write text ++ rest) = some (text, rest) := by
  have head (first : Char) (other : first ≠ '\'') (absent : first ∉ text) :
      (text ++ (['\'', '\'', '\''] ++ rest)).head? ≠ some first := by
    intro same
    cases text with
    | nil => exact other (Option.some.inj same).symm
    | cons char text => exact absent (Option.some.inj same ▸ List.mem_cons_self)
  have noReturn : '\r' ∉ text := by
    intro member
    have unescaped := free '\r' member
    contradiction
  have dropped : dropLineEnd (openingLineEnd text ++ (text ++ (['\'', '\'', '\''] ++ rest))) =
      text ++ (['\'', '\'', '\''] ++ rest) :=
    dropLineEnd_openingLineEnd (head '\n' (by decide)) (fun _ => head '\r' (by decide) noReturn)
  have read := readLongLiteral_append free few ends.2
  rw [← dropped] at read
  simpa [QuoteForm.write, readQuoted] using read

/-- A quoted text is read back, with what stands behind it. -/
theorem readQuoted_writeQuoted (text : Text) (ends : EndsQuoted rest) :
    readQuoted (writeQuoted text ++ rest) = some (text, rest) := by
  have free (unescaped : text.any needsEscape = false) : ∀ char ∈ text, needsEscape char = false := by
    simpa using unescaped
  unfold writeQuoted formOf
  simp only
  split
  · exact readQuoted_write_basic ends
  split
  · next plain =>
      simp only [Bool.and_eq_true, Bool.not_eq_true'] at plain
      obtain ⟨⟨unescaped, oneLine⟩, unquoted⟩ := plain
      refine readQuoted_write_literal ends (fun char member => ?_) (by simpa using unquoted)
      have lineFeed : char ≠ '\n' := by
        rintro rfl
        simp [member] at oneLine
      simpa [needsEscape, lineFeed] using free unescaped char member
  split
  · exact readQuoted_write_longBasic ends
  split
  · next few =>
      simp only [Bool.and_eq_true, Bool.not_eq_true', decide_eq_true_eq] at few
      exact readQuoted_write_longLiteral ends (free few.1) (not_infix_of_longestRun_le few.2)
  split
  · exact readQuoted_write_longBasic ends
  · exact readQuoted_write_basic ends

end Form

end BranchCatalog.Toml
