import BranchCatalog.Proofs.Toml.Quoted
import BranchCatalog.Toml.Document

namespace BranchCatalog.Toml

section Lines

variable {first : Char} {text rest : Text}

/-- A character that starts neither layout nor a comment nor a line end. -/
def IsStart (char : Char) : Prop :=
  isLayout char = false ∧ char ≠ '#' ∧ char ≠ '\n' ∧ char ≠ '\r'

theorem skipLayout_of_start (start : IsStart first) (rest : Text) :
    skipLayout (first :: rest) = first :: rest := by
  simp [skipLayout, start.1]

theorem skipComment_of_ne (different : first ≠ '#') (rest : Text) :
    skipComment (first :: rest) = first :: rest := by
  rw [skipComment]
  exact fun _ same => absurd (List.cons.inj same).1 different

theorem lineEnd?_of_start (start : IsStart first) (rest : Text) : lineEnd? (first :: rest) = none := by
  rw [lineEnd?]
  · exact fun _ same => absurd (List.cons.inj same).1 start.2.2.1
  · exact fun _ same => absurd (List.cons.inj same).1 start.2.2.2

theorem skipAllLines_nil : skipAllLines [] = [] := rfl

theorem skipAllLines_lineFeed (rest : Text) : skipAllLines ('\n' :: rest) = skipAllLines rest := rfl

/-- Behind layout alone, nothing more is skipped. -/
theorem skipAllLines_of_skipLayout (start : IsStart first) (skipped : skipLayout text = first :: rest) :
    skipAllLines text = first :: rest := by
  rw [skipAllLines, skipLines, skipped]
  simp only [skipComment_of_ne start.2.1, lineEnd?_of_start start]

theorem skipAllLines_of_start (start : IsStart first) (rest : Text) :
    skipAllLines (first :: rest) = first :: rest :=
  skipAllLines_of_skipLayout start (skipLayout_of_start start rest)

end Lines

section Values

variable {depth : Nat} {written text rest : Text} {value : Value}

/-- What stands behind a value: the end of its line, or a comma or a bracket in a list. -/
def EndsValue (rest : Text) : Prop :=
  rest.head? = some '\n' ∨ rest.head? = some ',' ∨ rest.head? = some ']'

/-- A value is read as it was written, up to where it ends. -/
structure ReadsBack (depth : Nat) (written : Text) (value : Value) : Prop where
  starts : ∃ first more, written = first :: more ∧ IsStart first ∧ first ≠ ']'
  reads : ∀ rest, EndsValue rest → readValue depth (written ++ rest) = some (value, rest)

theorem EndsValue.endsQuoted (ends : EndsValue rest) : EndsQuoted rest := by
  rcases ends with same | same | same <;> (rw [EndsQuoted, same]; decide)

theorem exists_quote_of_writeQuoted (text : Text) :
    ∃ quote more, writeQuoted text = quote :: more ∧ (quote = '"' ∨ quote = '\'') := by
  unfold writeQuoted QuoteForm.write
  split
  · exact ⟨_, _, rfl, Or.inl rfl⟩
  · exact ⟨_, _, rfl, Or.inr rfl⟩
  · exact ⟨_, _, rfl, Or.inl rfl⟩
  · exact ⟨_, _, rfl, Or.inr rfl⟩

/-- A quoted text is read back. -/
theorem readsBack_writeQuoted (depth : Nat) (text : Text) :
    ReadsBack depth (writeQuoted text) (.text text) := by
  obtain ⟨quote, more, written, is⟩ := exists_quote_of_writeQuoted text
  refine ⟨⟨quote, more, written, ?_⟩, fun rest ends => ?_⟩
  · rcases is with rfl | rfl <;> (unfold IsStart; decide)
  · have read := readQuoted_writeQuoted text ends.endsQuoted
    rw [written] at read ⊢
    rcases is with rfl | rfl <;> (rw [List.cons_append] at read ⊢; rw [readValue, read]; rfl)

/-- A word of letters ends where a value ends. -/
theorem takeWhile_scalar_append {word : Text} (letters : ∀ char ∈ word, isScalarChar char = true)
    (ends : EndsValue rest) : (word ++ rest).takeWhile isScalarChar = word := by
  rw [List.takeWhile_append_of_pos letters]
  rcases rest with _ | ⟨first, rest⟩
  · simp
  · have other : isScalarChar first = false := by
      rcases ends with same | same | same <;> (cases same; decide)
    simp [other]

theorem readsBack_true (depth : Nat) : ReadsBack depth "true".toList (.boolean true) := by
  refine ⟨⟨'t', "rue".toList, rfl, by unfold IsStart; decide⟩, fun rest ends => ?_⟩
  have letters : "true".toList = ['t', 'r', 'u', 'e'] := rfl
  have word : ("true".toList ++ rest).takeWhile isScalarChar = "true".toList :=
    takeWhile_scalar_append (List.all_eq_true.mp (by decide)) ends
  rw [letters] at word ⊢
  simp only [List.cons_append, List.nil_append] at word ⊢
  rw [readValue]
  · simp [word]
  all_goals simp

theorem readsBack_false (depth : Nat) : ReadsBack depth "false".toList (.boolean false) := by
  refine ⟨⟨'f', "alse".toList, rfl, by unfold IsStart; decide⟩, fun rest ends => ?_⟩
  have letters : "false".toList = ['f', 'a', 'l', 's', 'e'] := rfl
  have word : ("false".toList ++ rest).takeWhile isScalarChar = "false".toList :=
    takeWhile_scalar_append (List.all_eq_true.mp (by decide)) ends
  rw [letters] at word ⊢
  simp only [List.cons_append, List.nil_append] at word ⊢
  rw [readValue]
  · simp [word]
  all_goals simp

section Items

variable {read : Text → Option (Value × Text)} {fuel : Nat} {first : Char}
variable {more behind last : Text} {values : List Value}

theorem readItems_of_close (skipped : skipAllLines text = ']' :: rest) :
    readItems read (fuel + 1) text = some ([], rest) := by
  rw [readItems, skipped]
  rfl

/-- The last value of a list has its bracket behind it. -/
theorem readItems_of_last (skipped : skipAllLines text = first :: more) (other : first ≠ ']')
    (found : read (first :: more) = some (value, behind))
    (closed : skipAllLines behind = ']' :: rest) :
    readItems read (fuel + 1) text = some ([value], rest) := by
  rw [readItems, skipped]
  split
  · next same => exact absurd (List.cons.inj same).1 other
  · simp only [found, Option.bind_eq_bind, Option.bind_some, closed]
    rfl

theorem readItems_of_comma (skipped : skipAllLines text = first :: more) (other : first ≠ ']')
    (found : read (first :: more) = some (value, behind))
    (comma : skipAllLines behind = ',' :: rest)
    (further : readItems read fuel rest = some (values, last)) :
    readItems read (fuel + 1) text = some (value :: values, last) := by
  rw [readItems, skipped]
  split
  · next same => exact absurd (List.cons.inj same).1 other
  · simp only [found, Option.bind_eq_bind, Option.bind_some, comma, further]
    rfl

end Items

/-- The lines of the texts of a list, each with a comma behind. -/
def itemLines (texts : List Text) : Text :=
  texts.flatMap fun text => "    ".toList ++ writeQuoted text ++ [',', '\n']

theorem isStart_closing : IsStart ']' := by
  unfold IsStart
  decide

theorem isStart_comma : IsStart ',' := by
  unfold IsStart
  decide

/-- The texts of a list are read from their lines, up to the closing bracket. -/
theorem readItems_itemLines (depth : Nat) (texts : List Text) {fuel : Nat} (enough : texts.length < fuel)
    (rest : Text) :
    readItems (readValue depth) fuel ('\n' :: (itemLines texts ++ ']' :: rest)) =
      some (texts.map .text, rest) := by
  obtain ⟨fuel, rfl⟩ := Nat.exists_eq_succ_of_ne_zero (Nat.ne_zero_of_lt enough)
  induction texts generalizing fuel with
  | nil => exact readItems_of_close (skipAllLines_of_start isStart_closing rest)
  | cons text texts inductionHypothesis =>
      obtain ⟨fuel, rfl⟩ := Nat.exists_eq_succ_of_ne_zero (Nat.ne_zero_of_lt (Nat.lt_of_succ_lt_succ enough))
      have reads := readsBack_writeQuoted depth text
      obtain ⟨first, more, written, start, other⟩ := reads.starts
      have found := reads.reads (',' :: '\n' :: (itemLines texts ++ ']' :: rest)) (Or.inr (Or.inl rfl))
      have further := inductionHypothesis fuel (Nat.lt_of_succ_lt_succ enough)
      have lines : '\n' :: (itemLines (text :: texts) ++ ']' :: rest) = '\n' :: ' ' :: ' ' :: ' ' :: ' ' ::
          (writeQuoted text ++ ',' :: '\n' :: (itemLines texts ++ ']' :: rest)) := by
        simp [itemLines]
      rw [written, List.cons_append] at found lines
      rw [lines]
      refine readItems_of_comma ?_ other found (skipAllLines_of_start isStart_comma _) further
      rw [skipAllLines_lineFeed]
      exact skipAllLines_of_skipLayout start (skipLayout_of_start start _)

theorem length_le_flatMap {Item : Type} {write : Item → Text} {items : List Item}
    (nonempty : ∀ item ∈ items, write item ≠ []) : items.length ≤ (items.flatMap write).length := by
  induction items with
  | nil => exact Nat.zero_le _
  | cons item items inductionHypothesis =>
      obtain ⟨first, others⟩ := List.forall_mem_cons.mp nonempty
      have positive := List.length_pos_iff.mpr first
      have shorter := inductionHypothesis others
      rw [List.flatMap_cons, List.length_append, List.length_cons]
      omega

theorem readValue_list {values : List Value} {last : Text}
    (found : readItems (readValue depth) (rest.length + 1) rest = some (values, last)) :
    readValue (depth + 1) ('[' :: rest) = some (.list values, last) := by
  rw [readValue, found]
  rfl

theorem isStart_opening : IsStart '[' := by
  unfold IsStart
  decide

theorem readsBack_empty (depth : Nat) : ReadsBack (depth + 1) ['[', ']'] (.list []) := by
  refine ⟨⟨'[', [']'], rfl, isStart_opening, by decide⟩, fun rest _ => readValue_list ?_⟩
  exact readItems_of_close (skipAllLines_of_start isStart_closing rest)

/-- A list of one text is read back from one line. -/
theorem readsBack_one (depth : Nat) (text : Text) :
    ReadsBack (depth + 1) ('[' :: writeQuoted text ++ [']']) (.list [.text text]) := by
  refine ⟨⟨'[', _, rfl, isStart_opening, by decide⟩, fun rest _ => ?_⟩
  have reads := readsBack_writeQuoted depth text
  obtain ⟨first, more, written, start, other⟩ := reads.starts
  have found := reads.reads (']' :: rest) (Or.inr (Or.inr rfl))
  rw [List.cons_append, List.cons_append, List.append_assoc, List.singleton_append]
  rw [written, List.cons_append] at found ⊢
  refine readValue_list (readItems_of_last ?_ other found ?_)
  · exact skipAllLines_of_start start _
  · exact skipAllLines_of_start isStart_closing rest

/-- A list of several texts is read back from several lines. -/
theorem readsBack_itemLines (depth : Nat) (texts : List Text) :
    ReadsBack (depth + 1) ('[' :: '\n' :: itemLines texts ++ [']']) (.list (texts.map .text)) := by
  refine ⟨⟨'[', _, rfl, isStart_opening, by decide⟩, fun rest _ => ?_⟩
  have enough : texts.length ≤ (itemLines texts).length := length_le_flatMap fun text _ => by simp
  rw [List.append_assoc, List.singleton_append]
  refine readValue_list (readItems_itemLines depth texts (Nat.lt_succ_of_le ?_) rest)
  exact enough.trans ((List.sublist_append_left _ _).cons '\n').length_le

end Values

/-- A key and the text of its value. -/
structure KeyLine where
  key : Text
  written : Text
  value : Value

namespace KeyLine

def text (line : KeyLine) : Text :=
  line.key ++ " = ".toList ++ line.written ++ ['\n']

def entry (line : KeyLine) : Text × Item :=
  (line.key, .value line.value)

/-- A key that needs no quotes, and a value that is read as it was written. -/
structure IsReadable (line : KeyLine) : Prop where
  nonempty : line.key ≠ []
  bare : ∀ char ∈ line.key, isKeyChar char = true
  value : ReadsBack deepest line.written line.value

variable {line : KeyLine} {lines : List KeyLine} {rest : Text} {entries : Entries}

theorem exists_start_of_bare {key : Text} (nonempty : key ≠ [])
    (bare : ∀ char ∈ key, isKeyChar char = true) :
    ∃ first more, key = first :: more ∧ IsStart first ∧
      first ≠ '[' ∧ first ≠ '"' ∧ first ≠ '\'' ∧ first ≠ '\uFEFF' := by
  obtain ⟨first, more, rfl⟩ := List.exists_cons_of_ne_nil nonempty
  have letter := bare first List.mem_cons_self
  have different (other : Char) (none : isKeyChar other = false) : first ≠ other := by
    rintro rfl
    rw [letter] at none
    contradiction
  have noLayout : isLayout first = false := by
    simp [isLayout, different ' ' (by decide), different '\t' (by decide)]
  exact ⟨first, more, rfl,
    ⟨noLayout, different '#' (by decide), different '\n' (by decide), different '\r' (by decide)⟩,
    different '[' (by decide), different '"' (by decide), different '\'' (by decide),
    different '\uFEFF' (by decide)⟩

/-- A bare key is read up to the space behind it. -/
theorem readSimpleKey_append {key : Text} (nonempty : key ≠ [])
    (bare : ∀ char ∈ key, isKeyChar char = true) (rest : Text) :
    readSimpleKey (key ++ ' ' :: rest) = some (key, ' ' :: rest) := by
  have space : isKeyChar ' ' = false := by decide
  have taken : (key ++ ' ' :: rest).takeWhile isKeyChar = key := by
    rw [List.takeWhile_append_of_pos bare]
    simp [space]
  obtain ⟨first, more, written, -, -, noQuote, noApostrophe, -⟩ := exists_start_of_bare nonempty bare
  unfold readSimpleKey
  split
  · next same => simp [written, noQuote] at same
  · next same => simp [written, noApostrophe] at same
  · simp only [taken, List.isEmpty_eq_false_iff.mpr nonempty, List.drop_left]
    rfl

/-- A key is read up to the equals sign, with the space before. -/
theorem readKey_append {key : Text} (nonempty : key ≠ []) (bare : ∀ char ∈ key, isKeyChar char = true)
    (rest : Text) : readKey (key ++ ' ' :: '=' :: rest) = some ([key], '=' :: rest) := by
  obtain ⟨first, more, written, start, -⟩ := exists_start_of_bare nonempty bare
  have kept : skipLayout (key ++ ' ' :: '=' :: rest) = key ++ ' ' :: '=' :: rest := by
    rw [written]
    exact skipLayout_of_start start _
  have skipped : skipLayout (' ' :: '=' :: rest) = '=' :: rest := rfl
  rw [readKey, readKeyParts, kept]
  simp only [readSimpleKey_append nonempty bare, Option.bind_eq_bind, Option.bind_some, skipped]
  rfl

theorem lookup_eq_none_of_not_mem {key : Text} (new : key ∉ entries.map Prod.fst) :
    List.lookup key entries = none := by
  rw [List.lookup_eq_none_iff]
  intro entry member
  exact bne_iff_ne.mpr fun same => new (List.mem_map.mpr ⟨entry, member, same.symm⟩)

theorem readExpression_line (readable : line.IsReadable) (new : line.key ∉ entries.map Prod.fst) :
    readExpression ⟨entries, []⟩ (line.text ++ rest) = some (⟨entries ++ [line.entry], []⟩, rest) := by
  obtain ⟨first, more, written, -, noBracket, -⟩ := exists_start_of_bare readable.nonempty readable.bare
  obtain ⟨valueFirst, valueMore, valueWritten, valueStart, -⟩ := readable.value.starts
  have spelled : line.text ++ rest = line.key ++ ' ' :: '=' :: ' ' :: (line.written ++ '\n' :: rest) := by
    simp [text]
  have key := readKey_append readable.nonempty readable.bare (' ' :: (line.written ++ '\n' :: rest))
  have skipped : skipLayout (' ' :: (line.written ++ '\n' :: rest)) = line.written ++ '\n' :: rest := by
    rw [valueWritten]
    exact skipLayout_of_start valueStart _
  have value := readable.value.reads ('\n' :: rest) (Or.inl rfl)
  have bound : Entries.change false (fun _ inner => inner.bindPath [line.key] line.value) [] .opened entries =
      some (entries ++ [line.entry]) := by
    simp [Entries.change, Entries.bindPath, Entries.bind, lookup_eq_none_of_not_mem new, entry]
  rw [spelled]
  unfold readExpression
  split
  · next same => simp [written, noBracket] at same
  · next same => simp [written, noBracket] at same
  · simp only [key, Text.dropStart?, if_true, Option.bind_eq_bind, Option.bind_some, skipped, value, bound]
    rfl

/-- Readable lines are read one after another, as long as their keys differ. -/
theorem readExpressions_lines {fuel : Nat} (enough : lines.length < fuel)
    (readable : ∀ line ∈ lines, line.IsReadable)
    (keys : (entries.map Prod.fst ++ lines.map key).Nodup) :
    readExpressions fuel ⟨entries, []⟩ (lines.flatMap text) = some (entries ++ lines.map entry) := by
  obtain ⟨fuel, rfl⟩ := Nat.exists_eq_succ_of_ne_zero (Nat.ne_zero_of_lt enough)
  induction lines generalizing fuel entries with
  | nil => simp [readExpressions, skipAllLines_nil]
  | cons line lines inductionHypothesis =>
      obtain ⟨fuel, rfl⟩ := Nat.exists_eq_succ_of_ne_zero (Nat.ne_zero_of_lt (Nat.lt_of_succ_lt_succ enough))
      obtain ⟨first, others⟩ := List.forall_mem_cons.mp readable
      have new : line.key ∉ entries.map Prod.fst := by
        intro member
        exact (List.nodup_append.mp keys).2.2 _ member _ List.mem_cons_self rfl
      have keysLeft : ((entries ++ [line.entry]).map Prod.fst ++ lines.map key).Nodup := by
        simpa [entry] using keys
      have further := inductionHypothesis others keysLeft fuel (Nat.lt_of_succ_lt_succ enough)
      obtain ⟨letter, more, written, start, -⟩ := exists_start_of_bare first.nonempty first.bare
      have skipped : skipAllLines (line.text ++ lines.flatMap text) = line.text ++ lines.flatMap text := by
        rw [text, written]
        exact skipAllLines_of_start start _
      have nonempty : line.text ++ lines.flatMap text ≠ [] := by
        rw [text, written]
        exact List.cons_ne_nil _ _
      rw [List.flatMap_cons, readExpressions, skipped]
      split
      · next none => exact absurd none nonempty
      · simp only [readExpression_line first new, Option.bind_eq_bind, Option.bind_some, further]
        simp

/-- A document of readable lines with different keys binds each key to its value. -/
theorem readDocument_lines (readable : ∀ line ∈ lines, line.IsReadable)
    (keys : (lines.map key).Nodup) :
    readDocument (lines.flatMap text) = some (lines.map entry) := by
  have unmarked : Text.dropStart? ['\uFEFF'] (lines.flatMap text) = none := by
    cases lines with
    | nil => rfl
    | cons line lines =>
        have first := readable line List.mem_cons_self
        obtain ⟨letter, more, written, -, -, -, -, noMark⟩ := exists_start_of_bare first.nonempty first.bare
        simp [text, written, Text.dropStart?, noMark]
  have enough : lines.length ≤ (lines.flatMap text).length :=
    length_le_flatMap fun line _ => by simp [text]
  simp only [readDocument, unmarked, Option.getD_none]
  exact readExpressions_lines (Nat.lt_succ_of_le enough) readable (by simpa using keys)

end KeyLine

end BranchCatalog.Toml
