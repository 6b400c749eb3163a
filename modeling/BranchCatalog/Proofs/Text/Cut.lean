import BranchCatalog.Text.Basic
import Mathlib.Data.List.Infix

namespace BranchCatalog.Text

/-- Cuts while the first `skipped` characters still belong to the last separator found. -/
def cutFrom (separator : Text) : Nat → Text → List Text
  | _, [] => [[]]
  | skipped + 1, _ :: rest => cutFrom separator skipped rest
  | 0, char :: rest =>
    if separator.isPrefixOf (char :: rest) then
      [] :: cutFrom separator (separator.length - 1) rest
    else (cutFrom separator 0 rest).modifyHead (char :: ·)

/-- The pieces of a text between the occurrences of a separator, which are taken from the left without
overlap. -/
def cut (separator text : Text) : List Text :=
  cutFrom separator 0 text

section Occurrence

variable {wanted text : Text}

/-- A text occurs in another one when it stands in it. -/
theorem occursIn_eq_true_iff : occursIn wanted text = true ↔ wanted <:+: text := by
  induction text with
  | nil => simp [occursIn]
  | cons char text inductionHypothesis =>
      rw [occursIn, Bool.or_eq_true, inductionHypothesis, List.isPrefixOf_iff_prefix,
        List.infix_cons_iff]

/-- A text in which a part of the wanted text does not occur holds no occurrence of the whole. -/
theorem not_occursIn_of_infix {part : Text} (inside : part <:+: wanted)
    (clear : occursIn part text = false) : occursIn wanted text = false := by
  rw [← Bool.not_eq_true, occursIn_eq_true_iff] at clear ⊢
  exact fun found => clear (inside.trans found)

variable {first : Char} {more : Text}

/-- A text does not occur where its first character is missing. -/
theorem not_occursIn_of_not_mem (absent : first ∉ text) : occursIn (first :: more) text = false := by
  rw [← Bool.not_eq_true, occursIn_eq_true_iff]
  exact fun found => absent (found.subset List.mem_cons_self)

theorem occursIn_cons_of_not_mem (absent : first ∉ text) :
    occursIn (first :: more) (first :: text) = more.isPrefixOf text := by
  simp [occursIn, not_occursIn_of_not_mem absent, List.isPrefixOf]

/-- A wanted text that holds its first character only once does not reach over another occurrence of this
character. -/
theorem occursIn_append_cons (single : first ∉ more) (before after : Text) :
    occursIn (first :: more) (before ++ first :: after) =
      (occursIn (first :: more) before || occursIn (first :: more) (first :: after)) := by
  induction before with
  | nil => simp [occursIn]
  | cons char before inductionHypothesis =>
      have start : (first :: more).isPrefixOf (char :: before ++ first :: after) =
          (first :: more).isPrefixOf (char :: before) := by
        rw [Bool.eq_iff_iff, List.isPrefixOf_iff_prefix, List.isPrefixOf_iff_prefix]
        refine ⟨fun found => ?_, fun found => found.trans (List.prefix_append _ _)⟩
        rcases List.prefix_or_prefix_of_prefix found (List.prefix_append (char :: before) _) with
          inside | ⟨rest, reaches⟩
        · exact inside
        · -- what is left of the wanted text would begin with its first character again
          cases rest with
          | nil => exact ⟨[], by simpa using reaches.symm⟩
          | cons next rest =>
              rw [← reaches, List.prefix_append_right_inj, List.cons_prefix_cons] at found
              obtain ⟨rfl, -⟩ := found
              obtain ⟨-, rfl⟩ := List.cons.inj reaches
              exact absurd (List.mem_append_right before List.mem_cons_self) single
      rw [List.cons_append, occursIn, ← List.cons_append, start, inductionHypothesis,
        ← Bool.or_assoc]
      rfl

end Occurrence

section Cut

variable {separator : Text}

theorem cutFrom_length (separator skipped rest : Text) :
    cutFrom separator skipped.length (skipped ++ rest) = cutFrom separator 0 rest := by
  induction skipped with
  | nil => rfl
  | cons char skipped inductionHypothesis => simpa [cutFrom] using inductionHypothesis

theorem cut_separator_append (nonempty : separator ≠ []) (rest : Text) :
    cut separator (separator ++ rest) = [] :: cut separator rest := by
  cases separator with
  | nil => contradiction
  | cons char more =>
      have here : (char :: more).isPrefixOf (char :: (more ++ rest)) = true :=
        List.isPrefixOf_iff_prefix.mpr (List.prefix_append (char :: more) rest)
      rw [List.cons_append, cut, cutFrom, if_pos here]
      exact congrArg ([] :: ·) (cutFrom_length (char :: more) more rest)

/-- A piece comes off in front of a separator that ends the first occurrence in both together. -/
theorem cut_append (nonempty : separator ≠ []) {piece : Text}
    (clear : occursIn separator (piece ++ separator.dropLast) = false) (rest : Text) :
    cut separator (piece ++ separator ++ rest) = piece :: cut separator rest := by
  induction piece with
  | nil => exact cut_separator_append nonempty rest
  | cons char piece inductionHypothesis =>
      rw [List.cons_append, occursIn, Bool.or_eq_false_iff] at clear
      have elsewhere : separator.isPrefixOf (char :: (piece ++ separator ++ rest)) = false := by
        rw [← Bool.not_eq_true, List.isPrefixOf_iff_prefix] at clear ⊢
        intro found
        have shown : char :: (piece ++ separator.dropLast) <+: char :: (piece ++ separator ++ rest) := by
          rw [List.append_assoc]
          exact (List.prefix_append_right_inj (char :: piece)).mpr
            ((List.dropLast_prefix separator).trans (List.prefix_append separator rest))
        have fits : separator.length ≤ (char :: (piece ++ separator.dropLast)).length := by
          simp only [List.length_cons, List.length_append, List.length_dropLast]
          omega
        exact clear.1 (List.prefix_of_prefix_length_le found shown fits)
      rw [List.cons_append, List.cons_append, cut, cutFrom, if_neg (ne_true_of_eq_false elsewhere)]
      exact congrArg (List.modifyHead (char :: ·)) (inductionHypothesis clear.2)

/-- A text without the separator is one piece. -/
theorem cut_of_not_occursIn {text : Text} (clear : occursIn separator text = false) :
    cut separator text = [text] := by
  induction text with
  | nil => rfl
  | cons char text inductionHypothesis =>
      rw [occursIn, Bool.or_eq_false_iff] at clear
      rw [cut, cutFrom, if_neg (ne_true_of_eq_false clear.1)]
      exact congrArg (List.modifyHead (char :: ·)) (inductionHypothesis clear.2)

end Cut

end BranchCatalog.Text
