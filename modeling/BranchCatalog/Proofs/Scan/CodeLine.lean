/-
This file cuts a line into its code and its complete string literals. Each line has one such cut, emptying the
literals of the line keeps the code of the cut as it is, and the literals may be exchanged for others.
-/

import BranchCatalog.Proofs.Scan.Literal

namespace BranchCatalog.Scan

section Separated

variable {Item : Type} {wanted before after first second rest other : List Item} {item : Item}

/-- What comes before and behind the first occurrence of an element is unique. -/
theorem eq_of_append_cons_eq (absent : item ∉ first) (alsoAbsent : item ∉ second)
    (same : first ++ item :: rest = second ++ item :: other) : first = second ∧ rest = other := by
  rcases split_of_append same with ⟨middle, rfl, -⟩ | ⟨middle, rfl, behind⟩
  · simp at absent
  · cases middle with
    | nil => exact ⟨(List.append_nil first).symm, (List.cons.inj behind).2⟩
    | cons head middle =>
        obtain ⟨rfl, -⟩ := List.cons.inj behind
        simp at alsoAbsent

/-- A list does not reach over an element that it does not have. -/
theorem infix_of_append_cons (absent : item ∉ wanted) (found : wanted <:+: before ++ item :: after) :
    wanted <:+: before ∨ wanted <:+: after := by
  obtain ⟨start, rest, split⟩ := found
  rcases split_of_append split with ⟨middle, inside, rfl⟩ | ⟨middle, rfl, -⟩
  · rcases split_of_append inside with ⟨gap, -, rfl⟩ | ⟨gap, -, rfl⟩
    · exact Or.inr ⟨gap, rest, rfl⟩
    · simp at absent
  · exact Or.inl ⟨start, middle, rfl⟩

end Separated

/-- Behind a quote this text completes a string literal. -/
def CompletesLiteral (rest : Text) : Prop :=
  ∃ body after, IsLiteralBody body ∧ rest = body ++ '"' :: after

/-- A literal that does not end is no literal. -/
theorem afterLiteral?_eq_none_iff {rest : Text} :
    afterLiteral? rest = none ↔ ¬ CompletesLiteral rest := by
  simp only [Option.eq_none_iff_forall_ne_some, ne_eq, afterLiteral?_eq_some_iff, CompletesLiteral]
  exact ⟨fun none ⟨body, after, found⟩ => none after ⟨body, found⟩,
    fun none after ⟨body, found⟩ => none ⟨body, after, found⟩⟩

/-- A text goes on to the closing quote of a literal behind it, if not to a quote before. -/
theorem completesLiteral_append {body : Text} (is : IsLiteralBody body) (text after : Text) :
    CompletesLiteral (text ++ '"' :: (body ++ '"' :: after)) := by
  fun_induction afterLiteral? text with
  | case1 => exact ⟨[], body ++ '"' :: after, .empty, rfl⟩
  | case2 => exact ⟨'\\' :: '"' :: body, after, .escaped '"' is, rfl⟩
  | case3 char rest inductionHypothesis =>
      obtain ⟨start, behind, starts, same⟩ := inductionHypothesis
      exact ⟨'\\' :: char :: start, behind, .escaped char starts, by simp [same]⟩
  | case4 rest => exact ⟨[], _, .empty, rfl⟩
  | case5 char rest alone escapes noQuote inductionHypothesis =>
      obtain ⟨start, behind, starts, same⟩ := inductionHypothesis
      have noBackslash : char ≠ '\\' := by
        rintro rfl
        cases rest with
        | nil => exact alone rfl rfl
        | cons next rest => exact escapes next rest rfl rfl
      exact ⟨char :: start, behind, .plain noQuote noBackslash starts, by simp [same]⟩

/-- A line as code alone, or as code, the text of a literal, and the line behind the literal. -/
inductive CodeLine where
  | code (piece : Text)
  | literal (piece body : Text) (behind : CodeLine)

namespace CodeLine

def text : CodeLine → Text
  | code piece => piece
  | literal piece body behind => piece ++ '"' :: (body ++ '"' :: behind.text)

/-- The line with nothing in its literals. -/
def emptied : CodeLine → Text
  | code piece => piece
  | literal piece _ behind => piece ++ '"' :: '"' :: behind.emptied

/-- The pieces of code from left to right. -/
def pieces : CodeLine → List Text
  | code piece => [piece]
  | literal piece _ behind => piece :: behind.pieces

def bodies : CodeLine → List Text
  | code _ => []
  | literal _ body behind => body :: behind.bodies

/-- No quote of a piece of code starts a complete literal, with what stands behind the piece. -/
def StartsNone (piece behind : Text) : Prop :=
  ∀ before after, piece = before ++ '"' :: after → ¬ CompletesLiteral (after ++ behind)

/-- The literals of a line are complete, and each is the first that can start behind the one before. -/
def IsLeftmost : CodeLine → Prop
  | code piece => StartsNone piece []
  | literal piece body behind =>
    StartsNone piece ('"' :: (body ++ '"' :: behind.text)) ∧ IsLiteralBody body ∧ behind.IsLeftmost

variable {piece body : Text} {cut other : CodeLine}

/-- A piece without quotes starts no literal. -/
theorem startsNone_of_not_mem (unquoted : '"' ∉ piece) (behind : Text) : StartsNone piece behind := by
  rintro before after rfl
  simp at unquoted

/-- The code before a literal has no quote, which would start a literal up to one of the next two quotes. -/
theorem not_mem_of_startsNone {after : Text} (is : IsLiteralBody body)
    (startsNone : StartsNone piece ('"' :: (body ++ '"' :: after))) : '"' ∉ piece := by
  intro quote
  obtain ⟨before, rest, split⟩ := List.append_of_mem quote
  exact startsNone before rest split (completesLiteral_append is rest after)

/-- A cut is leftmost when its first piece has no quote and the rest is leftmost. -/
theorem isLeftmost_literal_iff {behind : CodeLine} :
    (literal piece body behind).IsLeftmost ↔
      '"' ∉ piece ∧ IsLiteralBody body ∧ behind.IsLeftmost := by
  constructor
  · rintro ⟨startsNone, is, further⟩
    exact ⟨not_mem_of_startsNone is startsNone, is, further⟩
  · rintro ⟨unquoted, is, further⟩
    exact ⟨startsNone_of_not_mem unquoted _, is, further⟩

/-- Emptying the literals leaves a piece that starts none as it is. -/
theorem withoutLiterals_of_startsNone (startsNone : StartsNone piece []) :
    withoutLiterals piece = piece := by
  induction piece with
  | nil => rw [withoutLiterals]
  | cons char piece inductionHypothesis =>
      have opensNone : char = '"' → afterLiteral? piece = none := by
        rintro rfl
        simpa using afterLiteral?_eq_none_iff.mpr (startsNone [] piece rfl)
      have further : StartsNone piece [] := by
        rintro before after rfl
        exact startsNone (char :: before) after rfl
      rw [withoutLiterals_of_none opensNone, inductionHypothesis further]

/-- The literals that are emptied in a line are those of its cut. -/
theorem withoutLiterals_text (leftmost : cut.IsLeftmost) : withoutLiterals cut.text = cut.emptied := by
  induction cut with
  | code piece => exact withoutLiterals_of_startsNone leftmost
  | literal piece body behind inductionHypothesis =>
      obtain ⟨unquoted, is, further⟩ := isLeftmost_literal_iff.mp leftmost
      rw [text, emptied, withoutLiterals_append unquoted,
        withoutLiterals_of_closed (afterLiteral?_append is behind.text), inductionHypothesis further]

/-- The cut of a line that has one more character of code in front. -/
def push (char : Char) : CodeLine → CodeLine
  | code piece => code (char :: piece)
  | literal piece body behind => literal (char :: piece) body behind

theorem text_push (char : Char) (cut : CodeLine) : (cut.push char).text = char :: cut.text := by
  cases cut <;> rfl

theorem startsNone_cons {char : Char} {behind : Text}
    (opensNone : char = '"' → ¬ CompletesLiteral (piece ++ behind))
    (startsNone : StartsNone piece behind) : StartsNone (char :: piece) behind := by
  intro before after split
  cases before with
  | nil =>
      obtain ⟨quote, rfl⟩ := List.cons.inj split
      exact opensNone quote
  | cons first before => exact startsNone before after (List.cons.inj split).2

/-- A character before a leftmost cut leaves it leftmost, unless it opens a literal. -/
theorem isLeftmost_push {char : Char} (leftmost : cut.IsLeftmost)
    (opensNone : char = '"' → ¬ CompletesLiteral cut.text) : (cut.push char).IsLeftmost := by
  cases cut with
  | code piece =>
      refine startsNone_cons (fun quote => ?_) leftmost
      rw [List.append_nil]
      exact opensNone quote
  | literal piece body behind =>
      obtain ⟨startsNone, is, further⟩ := leftmost
      exact ⟨startsNone_cons opensNone startsNone, is, further⟩

/-- Every line has a cut. -/
theorem exists_isLeftmost (line : Text) : ∃ cut : CodeLine, cut.text = line ∧ cut.IsLeftmost := by
  induction line using literal_induction with
  | nil => exact ⟨code [], rfl, startsNone_of_not_mem List.not_mem_nil []⟩
  | literal rest after closed inductionHypothesis =>
      obtain ⟨body, is, rfl⟩ := afterLiteral?_eq_some_iff.mp closed
      obtain ⟨behind, rfl, leftmost⟩ := inductionHypothesis
      exact ⟨literal [] body behind, rfl,
        isLeftmost_literal_iff.mpr ⟨List.not_mem_nil, is, leftmost⟩⟩
  | plain char rest opensNone inductionHypothesis =>
      obtain ⟨cut, rfl, leftmost⟩ := inductionHypothesis
      refine ⟨cut.push char, text_push char cut, isLeftmost_push leftmost ?_⟩
      exact fun quote => afterLiteral?_eq_none_iff.mp (opensNone quote)

theorem text_ne_of_startsNone (startsNone : StartsNone piece []) {first : Text}
    (is : IsLiteralBody body) (behind : CodeLine) : (literal first body behind).text ≠ piece := by
  rintro rfl
  exact startsNone first _ rfl ⟨body, behind.text, is, List.append_nil _⟩

/-- No line has two cuts. -/
theorem eq_of_isLeftmost (leftmost : cut.IsLeftmost) (alsoLeftmost : other.IsLeftmost)
    (same : other.text = cut.text) : other = cut := by
  induction cut generalizing other with
  | code piece =>
      cases other with
      | code => exact congrArg code same
      | literal => exact absurd same (text_ne_of_startsNone leftmost alsoLeftmost.2.1 _)
  | literal piece body behind inductionHypothesis =>
      obtain ⟨unquoted, is, further⟩ := isLeftmost_literal_iff.mp leftmost
      cases other with
      | code => exact absurd same.symm (text_ne_of_startsNone alsoLeftmost is behind)
      | literal second secondBody secondBehind =>
          obtain ⟨secondUnquoted, secondIs, secondFurther⟩ := isLeftmost_literal_iff.mp alsoLeftmost
          obtain ⟨rfl, rest⟩ := eq_of_append_cons_eq secondUnquoted unquoted same
          have behindSame : secondBehind.text = behind.text := by
            have after := congrArg afterLiteral? rest
            rwa [afterLiteral?_append is, afterLiteral?_append secondIs, Option.some.injEq] at after
          rw [behindSame] at rest
          rw [inductionHypothesis further secondFurther behindSame, List.append_cancel_right rest]

theorem pieces_ne_nil (cut : CodeLine) : cut.pieces ≠ [] := by
  cases cut <;> exact List.cons_ne_nil _ _

/-- The literals of a cut may be exchanged for other complete ones. -/
theorem of_pieces_eq (leftmost : cut.IsLeftmost) (same : other.pieces = cut.pieces)
    (complete : ∀ body ∈ other.bodies, IsLiteralBody body) :
    other.IsLeftmost ∧ other.emptied = cut.emptied := by
  induction cut generalizing other with
  | code piece =>
      cases other with
      | code =>
          obtain rfl := List.singleton_inj.mp same
          exact ⟨leftmost, rfl⟩
      | literal first body behind => exact absurd (List.cons.inj same).2 (pieces_ne_nil behind)
  | literal piece body behind inductionHypothesis =>
      cases other with
      | code => exact absurd (List.cons.inj same).2.symm (pieces_ne_nil behind)
      | literal first second behind =>
          obtain ⟨unquoted, -, further⟩ := isLeftmost_literal_iff.mp leftmost
          obtain ⟨rfl, others⟩ := List.cons.inj same
          obtain ⟨is, complete⟩ := List.forall_mem_cons.mp complete
          obtain ⟨alsoFurther, alsoEmptied⟩ := inductionHypothesis further others complete
          exact ⟨isLeftmost_literal_iff.mpr ⟨unquoted, is, alsoFurther⟩,
            congrArg (fun text => first ++ '"' :: '"' :: text) alsoEmptied⟩

/-- A text without quotes that stands in the emptied line stands in one of the pieces of code. -/
theorem exists_piece_of_infix {token : Text} (unquoted : '"' ∉ token) (nonempty : token ≠ [])
    (found : token <:+: cut.emptied) : ∃ piece ∈ cut.pieces, token <:+: piece := by
  induction cut with
  | code piece => exact ⟨piece, List.mem_cons_self, found⟩
  | literal piece body behind inductionHypothesis =>
      rcases infix_of_append_cons unquoted found with here | later
      · exact ⟨piece, List.mem_cons_self, here⟩
      · have behindQuotes : token <:+: behind.emptied := by
          have fromQuote : token <:+: [] ++ '"' :: behind.emptied := later
          rcases infix_of_append_cons unquoted fromQuote with here | further
          · exact absurd (List.infix_nil.mp here) nonempty
          · exact further
        obtain ⟨other, member, inside⟩ := inductionHypothesis behindQuotes
        exact ⟨other, List.mem_cons_of_mem piece member, inside⟩

end CodeLine

end BranchCatalog.Scan
