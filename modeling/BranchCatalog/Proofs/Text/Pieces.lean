import BranchCatalog.Text.Basic
import Mathlib.Data.List.Infix

namespace BranchCatalog.Text

section Join

variable {separator : Text} {pieces : List Text}

/-- A separator stands behind each piece but the last. -/
theorem join_cons_of_ne_nil (more : pieces ≠ []) (piece : Text) :
    join separator (piece :: pieces) = piece ++ separator ++ join separator pieces := by
  rw [join, List.intercalate_cons_of_ne_nil more]
  rfl

theorem infix_join_of_mem {piece : Text} (member : piece ∈ pieces) :
    piece <:+: join separator pieces := by
  induction pieces with
  | nil => contradiction
  | cons first pieces inductionHypothesis =>
      by_cases more : pieces = []
      · subst more
        rw [List.mem_singleton.mp member, join, List.intercalate_singleton]
      · rw [join_cons_of_ne_nil more]
        rcases List.mem_cons.mp member with rfl | later
        · rw [List.append_assoc]
          exact (List.prefix_append piece _).isInfix
        · exact (inductionHypothesis later).trans (List.suffix_append _ _).isInfix

/-- The first pieces stand at the start of the joined text. -/
theorem join_take_prefix (pieces : List Text) (count : Nat) :
    join separator (pieces.take count) <+: join separator pieces := by
  induction pieces generalizing count with
  | nil => simp
  | cons first pieces inductionHypothesis =>
      cases count with
      | zero => exact List.nil_prefix
      | succ count =>
          rw [List.take_succ_cons]
          by_cases more : pieces = []
          · simp [more]
          · rw [join_cons_of_ne_nil more]
            by_cases taken : pieces.take count = []
            · rw [taken, join, List.intercalate_singleton, List.append_assoc]
              exact List.prefix_append first _
            · rw [join_cons_of_ne_nil taken]
              exact (List.prefix_append_right_inj _).mpr (inductionHypothesis count)

theorem mem_join_iff_of_singleton {separator char : Char} {pieces : List Text}
    (member : char ∈ join [separator] pieces) : char = separator ∨ ∃ piece ∈ pieces, char ∈ piece := by
  induction pieces with
  | nil => contradiction
  | cons first pieces inductionHypothesis =>
      by_cases more : pieces = []
      · subst more
        rw [join, List.intercalate_singleton] at member
        exact Or.inr ⟨first, List.mem_singleton.mpr rfl, member⟩
      · rw [join_cons_of_ne_nil more, List.mem_append, List.mem_append, List.mem_singleton] at member
        rcases member with (here | same) | later
        · exact Or.inr ⟨first, List.mem_cons_self, here⟩
        · exact Or.inl same
        · rcases inductionHypothesis later with same | ⟨piece, inside, here⟩
          · exact Or.inl same
          · exact Or.inr ⟨piece, List.mem_cons_of_mem first inside, here⟩

end Join

section Split

variable {separator : Char} {pieces first second : List Text}

/-- A text is cut at a separator in its middle. -/
theorem split_append_cons (separator : Char) (before after : Text) :
    split separator (before ++ separator :: after) = split separator before ++ split separator after := by
  induction before with
  | nil => simp [split]
  | cons char before inductionHypothesis =>
      obtain ⟨piece, pieces, cut⟩ := List.exists_cons_of_ne_nil (split_ne_nil separator before)
      simp only [List.cons_append, split, inductionHypothesis, cut]
      split <;> rfl

/-- Two lists of pieces are joined with one separator between them. -/
theorem join_append (nonempty : first ≠ []) (alsoNonempty : second ≠ []) :
    join [separator] (first ++ second) =
      join [separator] first ++ separator :: join [separator] second := by
  induction first with
  | nil => contradiction
  | cons piece first inductionHypothesis =>
      by_cases more : first = []
      · subst more
        rw [List.singleton_append, join_cons_of_ne_nil alsoNonempty]
        simp [join]
      · rw [List.cons_append, join_cons_of_ne_nil (by simp [more]), inductionHypothesis more,
          join_cons_of_ne_nil more]
        simp

/-- What stands before a separator of the joined pieces is some of the pieces, but not all of them. -/
theorem prefix_join_iff (apart : ∀ piece ∈ pieces, separator ∉ piece) {start : Text} :
    start ++ [separator] <+: join [separator] pieces ↔
      ∃ count, count + 1 < pieces.length ∧ join [separator] (pieces.take (count + 1)) = start := by
  constructor
  · rintro ⟨rest, same⟩
    rw [List.append_assoc, List.singleton_append] at same
    have nonempty : pieces ≠ [] := by
      rintro rfl
      simp [join] at same
    have cut : pieces = split separator start ++ split separator rest := by
      rw [← split_append_cons, same, split_join nonempty apart]
    have left := List.length_pos_iff.mpr (split_ne_nil separator start)
    have right := List.length_pos_iff.mpr (split_ne_nil separator rest)
    refine ⟨(split separator start).length - 1, ?_, ?_⟩
    · rw [cut, List.length_append]
      omega
    · rw [Nat.sub_add_cancel left, cut, List.take_left, join_split]
  · rintro ⟨count, below, rfl⟩
    have taken : pieces.take (count + 1) ≠ [] := by
      rw [← List.length_pos_iff, List.length_take]
      omega
    have left : pieces.drop (count + 1) ≠ [] := by
      rw [← List.length_pos_iff, List.length_drop]
      omega
    refine ⟨join [separator] (pieces.drop (count + 1)), ?_⟩
    rw [List.append_assoc, List.singleton_append, ← join_append taken left, List.take_append_drop]

end Split

end BranchCatalog.Text
