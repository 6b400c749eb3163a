import BranchCatalog.Proofs.Scan.NotePass
import BranchCatalog.Proofs.Scan.Token

namespace BranchCatalog.Scan

/-- What is left of a text from a place outside of its complete string literals on. -/
inductive Outside : Text → Text → Prop where
  | here {text : Text} : Outside text text
  | past {char : Char} {rest later : Text} (opensNone : char = '"' → afterLiteral? rest = none)
      (further : Outside rest later) : Outside (char :: rest) later
  | pastLiteral {rest after later : Text} (closed : afterLiteral? rest = some after)
      (further : Outside after later) : Outside ('"' :: rest) later

/-- What stands between the quotes of a complete string literal of a text. -/
def IsLiteralOf (body text : Text) : Prop :=
  ∃ after, afterLiteral? (body ++ '"' :: after) = some after ∧ Outside text ('"' :: body ++ '"' :: after)

/-- What may stand between the quotes of a complete string literal: any characters, but a backslash takes the
character behind it along, and only such a character may be a quote. -/
inductive IsLiteralBody : Text → Prop where
  | empty : IsLiteralBody []
  | plain {char : Char} {rest : Text} (noQuote : char ≠ '"') (noBackslash : char ≠ '\\')
      (further : IsLiteralBody rest) : IsLiteralBody (char :: rest)
  | escaped (char : Char) {rest : Text} (further : IsLiteralBody rest) :
      IsLiteralBody ('\\' :: char :: rest)

theorem afterLiteral?_append {body : Text} (is : IsLiteralBody body) (after : Text) :
    afterLiteral? (body ++ '"' :: after) = some after := by
  induction is with
  | empty => simp [afterLiteral?]
  | plain noQuote noBackslash _ inductionHypothesis =>
      rw [List.cons_append, afterLiteral?, if_neg noQuote, inductionHypothesis]
      · exact fun escapes => absurd escapes noBackslash
      · exact fun _ _ escapes => absurd escapes noBackslash
  | escaped char _ inductionHypothesis =>
      rw [List.cons_append, List.cons_append, afterLiteral?, inductionHypothesis]

/-- What stands behind a literal stands behind its body and a quote. -/
theorem afterLiteral?_eq_some_iff {rest after : Text} :
    afterLiteral? rest = some after ↔ ∃ body, IsLiteralBody body ∧ rest = body ++ '"' :: after := by
  constructor
  · intro closed
    fun_induction afterLiteral? rest with
    | case1 => contradiction
    | case2 => contradiction
    | case3 char rest inductionHypothesis =>
        obtain ⟨body, is, rfl⟩ := inductionHypothesis closed
        exact ⟨'\\' :: char :: body, .escaped char is, rfl⟩
    | case4 rest =>
        cases closed
        exact ⟨[], .empty, rfl⟩
    | case5 char rest alone escapes noQuote inductionHypothesis =>
        obtain ⟨body, is, rfl⟩ := inductionHypothesis closed
        have noBackslash : char ≠ '\\' := by
          rintro rfl
          cases body with
          | nil => exact escapes _ _ rfl rfl
          | cons next body => exact escapes _ _ rfl rfl
        exact ⟨char :: body, .plain noQuote noBackslash is, rfl⟩
  · rintro ⟨body, is, rfl⟩
    exact afterLiteral?_append is after

section Emptied

theorem withoutLiterals_of_closed {rest after : Text} (closed : afterLiteral? rest = some after) :
    withoutLiterals ('"' :: rest) = '"' :: '"' :: withoutLiterals after := by
  rw [withoutLiterals, if_pos rfl]
  split
  · next found =>
      rw [closed] at found
      cases found
      rfl
  · next found =>
      rw [closed] at found
      contradiction

/-- A character that opens no literal stays. -/
theorem withoutLiterals_of_none {char : Char} {rest : Text}
    (opensNone : char = '"' → afterLiteral? rest = none) :
    withoutLiterals (char :: rest) = char :: withoutLiterals rest := by
  rw [withoutLiterals]
  split
  · next quote =>
      split
      · next found =>
          rw [opensNone quote] at found
          contradiction
      · rfl
  · rfl

/-- A text is empty, or it starts with a complete literal, or else with a character outside of the literals.
-/
@[elab_as_elim]
theorem literal_induction {motive : Text → Prop} (nil : motive [])
    (literal : ∀ rest after, afterLiteral? rest = some after → motive after → motive ('"' :: rest))
    (plain : ∀ char rest, (char = '"' → afterLiteral? rest = none) → motive rest →
      motive (char :: rest)) (text : Text) : motive text := by
  fun_induction withoutLiterals text with
  | case1 => exact nil
  | case2 rest after closed inductionHypothesis => exact literal rest after closed inductionHypothesis
  | case3 rest unclosed inductionHypothesis => exact plain _ rest (fun _ => unclosed) inductionHypothesis
  | case4 char rest different inductionHypothesis =>
      exact plain char rest (fun quote => absurd quote different) inductionHypothesis

end Emptied

namespace Outside

variable {text middle later piece : Text}

theorem trans (first : Outside text middle) (second : Outside middle later) : Outside text later := by
  induction first with
  | here => exact second
  | past opensNone _ inductionHypothesis => exact .past opensNone (inductionHypothesis second)
  | pastLiteral closed _ inductionHypothesis => exact .pastLiteral closed (inductionHypothesis second)

/-- A place outside of the literals is kept, with all behind it, when the literals are emptied. -/
theorem suffix_withoutLiterals (reached : Outside text later) :
    withoutLiterals later <:+ withoutLiterals text := by
  induction reached with
  | here => exact List.suffix_rfl
  | past opensNone _ inductionHypothesis =>
      rw [withoutLiterals_of_none opensNone]
      exact inductionHypothesis.trans (List.suffix_cons _ _)
  | pastLiteral closed _ inductionHypothesis =>
      rw [withoutLiterals_of_closed closed]
      exact inductionHypothesis.trans ((List.suffix_cons _ _).trans (List.suffix_cons _ _))

/-- No literal starts in a piece without quotes. -/
theorem behind (unquoted : '"' ∉ piece) (rest : Text) : Outside (piece ++ rest) rest := by
  induction piece with
  | nil => exact .here
  | cons char piece inductionHypothesis =>
      obtain ⟨different, others⟩ := List.ne_and_not_mem_of_not_mem_cons unquoted
      exact .past (fun quote => absurd quote.symm different) (inductionHypothesis others)

end Outside

section Pieces

variable {piece : Text}

theorem withoutLiterals_append (unquoted : '"' ∉ piece) (rest : Text) :
    withoutLiterals (piece ++ rest) = piece ++ withoutLiterals rest := by
  induction piece with
  | nil => rfl
  | cons char piece inductionHypothesis =>
      obtain ⟨different, others⟩ := List.ne_and_not_mem_of_not_mem_cons unquoted
      rw [List.cons_append, withoutLiterals_of_none fun quote => absurd quote.symm different,
        inductionHypothesis others, List.cons_append]

/-- A start without quotes of a text with its literals emptied is a start of the text. -/
theorem exists_rest_of_start (unquoted : '"' ∉ piece) {text behind : Text}
    (found : withoutLiterals text = piece ++ behind) :
    ∃ later, text = piece ++ later ∧ behind = withoutLiterals later := by
  induction piece generalizing text with
  | nil => exact ⟨text, rfl, found.symm⟩
  | cons char piece inductionHypothesis =>
      obtain ⟨different, others⟩ := List.ne_and_not_mem_of_not_mem_cons unquoted
      induction text using literal_induction with
      | nil => simp [withoutLiterals] at found
      | literal rest after closed =>
          rw [withoutLiterals_of_closed closed] at found
          exact absurd (List.cons.inj found).1 different
      | plain first rest opensNone =>
          rw [withoutLiterals_of_none opensNone] at found
          obtain ⟨rfl, tail⟩ := List.cons.inj found
          obtain ⟨later, rfl, same⟩ := inductionHypothesis others tail
          exact ⟨later, rfl, same⟩

/-- A piece without quotes stands in a text with its literals emptied only where it stands outside of them. -/
theorem exists_outside_of_append (unquoted : '"' ∉ piece) (nonempty : piece ≠ [])
    {text before behind : Text} (found : withoutLiterals text = before ++ piece ++ behind) :
    ∃ later, Outside text (piece ++ later) ∧ behind = withoutLiterals later := by
  obtain ⟨first, more, rfl⟩ := List.exists_cons_of_ne_nil nonempty
  have different : first ≠ '"' := fun same => unquoted (same ▸ List.mem_cons_self)
  induction text using literal_induction generalizing before with
  | nil => simp [withoutLiterals] at found
  | literal rest after closed inductionHypothesis =>
      rw [withoutLiterals_of_closed closed] at found
      -- the piece does not start at one of the two quotes that are left of the literal
      cases before with
      | nil => exact absurd (List.cons.inj found).1.symm different
      | cons opening before =>
          cases before with
          | nil => exact absurd (List.cons.inj (List.cons.inj found).2).1.symm different
          | cons closing before =>
              obtain ⟨later, reached, same⟩ :=
                inductionHypothesis (List.cons.inj (List.cons.inj found).2).2
              exact ⟨later, .pastLiteral closed reached, same⟩
  | plain char rest opensNone inductionHypothesis =>
      cases before with
      | nil =>
          obtain ⟨later, whole, same⟩ := exists_rest_of_start unquoted found
          exact ⟨later, whole ▸ .here, same⟩
      | cons head before =>
          rw [withoutLiterals_of_none opensNone] at found
          obtain ⟨later, reached, same⟩ := inductionHypothesis (List.cons.inj found).2
          exact ⟨later, .past opensNone reached, same⟩

/-- A piece without quotes stands outside of the literals of a text or inside of one. -/
theorem outside_or_inside (unquoted : '"' ∉ piece) (nonempty : piece ≠ []) {text before behind : Text}
    (split : text = before ++ piece ++ behind) :
    Outside text (piece ++ behind) ∨ ∃ body, IsLiteralOf body text ∧ piece <:+: body := by
  obtain ⟨first, more, rfl⟩ := List.exists_cons_of_ne_nil nonempty
  have different : first ≠ '"' := fun same => unquoted (same ▸ List.mem_cons_self)
  induction text using literal_induction generalizing before with
  | nil => simp at split
  | literal rest after closed inductionHypothesis =>
      obtain ⟨body, -, rfl⟩ := afterLiteral?_eq_some_iff.mp closed
      cases before with
      | nil => exact absurd (List.cons.inj split).1.symm different
      | cons head before =>
          -- the piece ends before the closing quote or starts behind it
          have rest : before ++ (first :: more) ++ behind = body ++ '"' :: after :=
            (List.cons.inj split).2.symm
          rcases split_of_append rest with ⟨middle, inside, rfl⟩ | ⟨middle, rfl, -⟩
          · rcases split_of_append inside with ⟨start, -, rfl⟩ | ⟨_, -, quoted⟩
            · rcases @inductionHypothesis start rfl with
                reached | ⟨other, ⟨last, closes, reached⟩, inside⟩
              · exact Or.inl (.pastLiteral closed reached)
              · exact Or.inr ⟨other, ⟨last, closes, .pastLiteral closed reached⟩, inside⟩
            · exact absurd (quoted ▸ List.mem_append_right _ List.mem_cons_self) unquoted
          · exact Or.inr ⟨_, ⟨after, closed, .here⟩, ⟨before, middle, rfl⟩⟩
  | plain char rest opensNone inductionHypothesis =>
      cases before with
      | nil => exact Or.inl (split ▸ .here)
      | cons head before =>
          rcases inductionHypothesis (List.cons.inj split).2 with
            reached | ⟨body, ⟨after, closed, reached⟩, inside⟩
          · exact Or.inl (.past opensNone reached)
          · exact Or.inr ⟨body, ⟨after, closed, .past opensNone reached⟩, inside⟩

end Pieces

section Comment

variable {variableName text : Text}

/-- A comment mark stands behind a variable, both of them outside of the literals of a text. -/
def CommentsOutside (variableName text : Text) : Prop :=
  ∃ behind mark rest, Outside text (variableName ++ behind) ∧ IsCommentMark mark ∧
    Outside behind (mark ++ rest)

theorem IsCommentMark.unquoted {mark : Text} (is : IsCommentMark mark) : '"' ∉ mark ∧ mark ≠ [] := by
  rcases is with rfl | rfl <;> decide

/-- A text with its literals emptied reads as a comment on a variable when the text does outside of its
literals. -/
theorem readsAsNote_withoutLiterals_iff (unquoted : '"' ∉ variableName) (nonempty : variableName ≠ []) :
    ReadsAsNote .comment variableName (withoutLiterals text) ↔ CommentsOutside variableName text := by
  constructor
  · rintro ⟨before, behind, found, mark, is, ⟨gap, rest, follows⟩⟩
    obtain ⟨later, reached, rfl⟩ := exists_outside_of_append unquoted nonempty found
    obtain ⟨last, marked, -⟩ := exists_outside_of_append is.unquoted.1 is.unquoted.2 follows.symm
    exact ⟨later, mark, last, reached, is, marked⟩
  · rintro ⟨behind, mark, rest, reached, is, marked⟩
    obtain ⟨before, found⟩ := reached.suffix_withoutLiterals
    obtain ⟨gap, follows⟩ := marked.suffix_withoutLiterals
    rw [withoutLiterals_append unquoted] at found
    rw [withoutLiterals_append is.unquoted.1] at follows
    refine ⟨before, withoutLiterals behind, by simp [← found], mark, is, gap, withoutLiterals rest, ?_⟩
    simp [← follows]

/-- A comment on a variable stands outside of the literals when no literal holds the variable or a comment
mark. -/
theorem commentsOutside_of_clear (unquoted : '"' ∉ variableName) (nonempty : variableName ≠ [])
    (reads : ReadsAsNote .comment variableName text)
    (clear : ∀ body, IsLiteralOf body text →
      ¬ variableName <:+: body ∧ ∀ mark, IsCommentMark mark → ¬ mark <:+: body) :
    CommentsOutside variableName text := by
  obtain ⟨before, behind, split, mark, is, gap, rest, follows⟩ := reads
  rcases outside_or_inside unquoted nonempty split with reached | ⟨body, literal, inside⟩
  · rcases outside_or_inside is.unquoted.1 is.unquoted.2 follows.symm with
      marked | ⟨body, ⟨after, closed, further⟩, inside⟩
    · exact ⟨behind, mark, rest, reached, is, marked⟩
    · have literal : IsLiteralOf body text :=
        ⟨after, closed, reached.trans ((Outside.behind unquoted behind).trans further)⟩
      exact absurd inside ((clear body literal).2 mark is)
  · exact absurd inside (clear body literal).1

end Comment

section Scanned

variable {filename content : Text} {events : List Event}

/-- What a scan records as a comment on a variable is a line that holds the variable outside of its complete
string literals. With its literals emptied the line still reads as a comment on the variable when a comment
mark stands behind the variable, both of them outside of the literals, as they do when no literal holds
either. -/
theorem comment_is_outside_iff (scanned : scanSource filename content = .ok events)
    {location : Location} {finding : NoteFinding} (member : .note .comment location finding ∈ events) :
    (∃ behind, Outside finding.text (finding.valueVariable ++ behind)) ∧
    (ReadsAsNote .comment finding.valueVariable (withoutLiterals finding.text) ↔
      CommentsOutside finding.valueVariable finding.text) ∧
    ((∀ body, IsLiteralOf body finding.text →
        ¬ finding.valueVariable <:+: body ∧ ∀ mark, IsCommentMark mark → ¬ mark <:+: body) →
      ReadsAsNote .comment finding.valueVariable (withoutLiterals finding.text)) := by
  have note := (mem_note_iff scanned).mp member
  have unquoted : '"' ∉ finding.valueVariable := not_mem_of_mem_lineTokens note.token (by decide)
  have nonempty := ne_nil_of_mem_lineTokens note.token
  have outside : ReadsAsNote .comment finding.valueVariable (withoutLiterals finding.text) ↔
      CommentsOutside finding.valueVariable finding.text :=
    readsAsNote_withoutLiterals_iff unquoted nonempty
  obtain ⟨before, behind, found⟩ := infix_of_mem_lineTokens note.token
  obtain ⟨later, reached, -⟩ := exists_outside_of_append unquoted nonempty found.symm
  exact ⟨⟨later, reached⟩, outside,
    fun clear => outside.mpr (commentsOutside_of_clear unquoted nonempty note.reads clear)⟩

/-- A comment mark in a literal does not keep a line from being a comment with the mark behind the literal. -/
theorem comment_is_outside_iff_of_both_marks :
    let content := "t->Branch(\"b\", &v);\nf(v, \"x://y\"); // z\n".toList
    let events : List Event := [.file ['a'], .tree ⟨['a'], 1⟩ (undeclaredTree ['t']),
      .branch ⟨['a'], 1⟩ ⟨['t'], ['b'], "b (object)".toList, ['v']⟩,
      .note .comment ⟨['a'], 2⟩ ⟨['t'], ['b'], ['v'], "f(v, \"x://y\"); // z".toList⟩]
    scanSource ['a'] content = .ok events ∧ CommentsOutside ['v'] "f(v, \"x://y\"); // z".toList := by
  intro content events
  have scanned : scanSource ['a'] content = .ok events := by decide +kernel
  have member : .note .comment ⟨['a'], 2⟩
      ⟨['t'], ['b'], ['v'], "f(v, \"x://y\"); // z".toList⟩ ∈ events := by simp [events]
  refine ⟨scanned, (comment_is_outside_iff scanned member).2.1.mp ?_⟩
  exact isNoteOn_iff.mp (by decide +kernel)

/-- A line whose only comment mark stands in a literal is recorded as a comment. -/
theorem comment_mark_in_literal :
    let content := "t->Branch(\"b\", &v);\nf(v, \"x://y\");\n".toList
    let note : NoteFinding := ⟨['t'], ['b'], ['v'], "f(v, \"x://y\");".toList⟩
    scanSource "a.cc".toList content = .ok [.file "a.cc".toList,
        .tree ⟨"a.cc".toList, 1⟩ (undeclaredTree ['t']),
        .branch ⟨"a.cc".toList, 1⟩ ⟨['t'], ['b'], "b (object)".toList, ['v']⟩,
        .note .comment ⟨"a.cc".toList, 2⟩ note] ∧
      ¬ ReadsAsNote .comment note.valueVariable (withoutLiterals note.text) := by
  intro content note
  refine ⟨by decide +kernel, ?_⟩
  rw [← isNoteOn_iff]
  decide +kernel

end Scanned

end BranchCatalog.Scan
