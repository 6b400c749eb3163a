import BranchCatalog.Text.Basic
import Mathlib.Data.List.Infix

namespace BranchCatalog.Text

/-- The number of places in a text where a wanted text occurs that is not empty. -/
def occurrences (wanted : Text) : Text → Nat
  | [] => 0
  | char :: rest => (if wanted.isPrefixOf (char :: rest) then 1 else 0) + occurrences wanted rest

section Replacement

variable {wanted replacement : Text}

theorem replaceFrom_length (wanted replacement skipped rest : Text) :
    replaceFrom wanted replacement skipped.length (skipped ++ rest) =
      replaceFrom wanted replacement 0 rest := by
  induction skipped with
  | nil => rfl
  | cons char skipped inductionHypothesis => simpa [replaceFrom] using inductionHypothesis

/-- An occurrence gives way to the replacement. -/
theorem replaceAll_wanted_append (nonempty : wanted ≠ []) (rest : Text) :
    replaceAll wanted replacement (wanted ++ rest) = replacement ++ replaceAll wanted replacement rest := by
  cases wanted with
  | nil => contradiction
  | cons char more =>
      have here : (char :: more).isPrefixOf (char :: (more ++ rest)) = true :=
        List.isPrefixOf_iff_prefix.mpr (List.prefix_append (char :: more) rest)
      rw [List.cons_append, replaceAll, replaceFrom, if_pos here]
      exact congrArg (replacement ++ ·) (replaceFrom_length (char :: more) replacement more rest)

/-- A character that starts no occurrence stays. -/
theorem replaceAll_cons {char : Char} {rest : Text} (elsewhere : wanted.isPrefixOf (char :: rest) = false) :
    replaceAll wanted replacement (char :: rest) = char :: replaceAll wanted replacement rest := by
  rw [replaceAll, replaceFrom, if_neg (ne_true_of_eq_false elsewhere)]
  rfl

/-- A text is empty, or it starts with the wanted text, or else with a character that no occurrence of the
wanted text starts at. -/
@[elab_as_elim]
theorem replacing_induction (nonempty : wanted ≠ []) {motive : Text → Prop} (nil : motive [])
    (place : ∀ rest, motive rest → motive (wanted ++ rest))
    (plain : ∀ char rest, wanted.isPrefixOf (char :: rest) = false → motive rest → motive (char :: rest))
    (text : Text) : motive text := by
  induction size : text.length using Nat.strongRecOn generalizing text with
  | ind length inductionHypothesis =>
      cases text with
      | nil => exact nil
      | cons char rest =>
          by_cases here : wanted <+: char :: rest
          · obtain ⟨behind, split⟩ := here
            have shorter : behind.length < length := by
              have positive := List.length_pos_of_ne_nil nonempty
              have total := congrArg List.length split
              rw [List.length_append, size] at total
              omega
            rw [← split]
            exact place behind (inductionHypothesis _ shorter behind rfl)
          · have elsewhere : wanted.isPrefixOf (char :: rest) = false := by
              rwa [← Bool.not_eq_true, List.isPrefixOf_iff_prefix]
            have shorter : rest.length < length := by
              rw [← size, List.length_cons]
              omega
            exact plain char rest elsewhere (inductionHypothesis _ shorter rest rfl)

theorem occurrences_le_append (wanted start rest : Text) :
    occurrences wanted rest ≤ occurrences wanted (start ++ rest) := by
  induction start with
  | nil => exact Nat.le_refl _
  | cons char start inductionHypothesis =>
      rw [List.cons_append, occurrences]
      omega

/-- A start at which no occurrence starts stays as it is. -/
theorem replaceAll_append {start rest : Text}
    (clear : occurrences wanted (start ++ rest) = occurrences wanted rest) :
    replaceAll wanted replacement (start ++ rest) = start ++ replaceAll wanted replacement rest := by
  induction start with
  | nil => rfl
  | cons char start inductionHypothesis =>
      have monotone := occurrences_le_append wanted start rest
      rw [List.cons_append, occurrences] at clear
      have behind : occurrences wanted (start ++ rest) = occurrences wanted rest := by omega
      have elsewhere : wanted.isPrefixOf (char :: (start ++ rest)) = false := by
        by_contra here
        rw [if_pos (Bool.of_not_eq_false here)] at clear
        omega
      rw [List.cons_append, replaceAll_cons elsewhere, inductionHypothesis behind, List.cons_append]

end Replacement

end BranchCatalog.Text
