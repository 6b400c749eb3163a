/-
This file says which rules stand on lines with plain names, and what a list of rules says of which none keeps
anything: it ignores what any of its rules is about, so neither their order nor their number can help a path.
-/

import BranchCatalog.Ignore.Rule
import BranchCatalog.Proofs.Ignore.Glob
import BranchCatalog.Proofs.PathBytes
import BranchCatalog.Proofs.Text.Pieces

namespace BranchCatalog

open Glob (IsPlain inSequence spelled)

namespace IgnoreRule

variable {line pattern name : Text} {char : Char} {rule : IgnoreRule}

/-- A line whose last character is not blank stays as it is. -/
theorem trimLine_of_getLast? (ends : line.getLast? = some char) (notBlank : Text.isBlank char = false) :
    trimLine line = line := by
  unfold trimLine
  split
  · rfl
  · obtain ⟨init, rfl⟩ := List.getLast?_eq_some_iff.mp ends
    simp [Text.trimEnd, notBlank]

theorem trimLine_prefix (line : Text) : trimLine line <+: line := by
  unfold trimLine
  split
  · exact List.prefix_refl line
  · have behind : line.reverse.dropWhile Text.isBlank <:+ line.reverse := List.dropWhile_suffix _
    simpa [Text.trimEnd] using List.reverse_prefix.mpr behind

/-- Only an exclamation mark at the start of a line makes a rule that keeps. -/
theorem keeps_of_ofLine? (found : ofLine? line = some rule) (noMark : line.head? ≠ some '!') :
    rule.keeps = false := by
  obtain ⟨rest, start⟩ := trimLine_prefix line
  unfold ofLine? at found
  generalize trimLine line = trimmed at *
  simp only at found
  split at found
  · contradiction
  · next speaks =>
      have never (more : Text) : trimmed ≠ '!' :: more := by
        rintro rfl
        exact noMark (start ▸ rfl)
      split at found
      all_goals first
        | exact absurd rfl (never _)
        | obtain ⟨glob, -, rfl⟩ := Option.map_eq_some_iff.mp found
          rfl

/-- A line whose first character is nothing special is a pattern as it stands. -/
theorem ofLine?_of_head (whole : trimLine (char :: pattern) = char :: pattern)
    (plain : char ∉ ['\\', '#', '!', '/']) :
    ofLine? (char :: pattern) =
      (Glob.ofText? (globText false (dropDirectoryMark (char :: pattern)).1)).map fun glob =>
        ⟨glob, false, (dropDirectoryMark (char :: pattern)).2⟩ := by
  simp only [List.mem_cons, not_or] at plain
  unfold ofLine?
  simp only [whole]
  rw [if_neg (by simp [plain])]
  split <;> simp_all

/-- A pattern without slashes is looked for in every directory. -/
theorem globText_of_not_mem (noSlash : '/' ∉ pattern) (noStars : ¬ ['*', '*'] <+: pattern)
    (ends : pattern.getLast? ≠ some '*') : globText false pattern = '*' :: '*' :: '/' :: pattern := by
  have noDirectories : ['*', '*', '/'].isPrefixOf pattern = false := by
    refine eq_false_of_ne_true fun start => noStars ?_
    exact (List.prefix_append ['*', '*'] ['/']).trans (List.isPrefixOf_iff_prefix.mp start)
  have notAlone : (pattern == ['*', '*']) = false :=
    beq_false_of_ne fun same => noStars (same ▸ List.prefix_refl _)
  have noEnd : ¬ ['*', '*', '/'] <+: pattern.reverse ++ ['/', '*', '*'] := by
    rcases List.eq_nil_or_concat' pattern with rfl | ⟨init, last, rfl⟩
    · simp
    · have other : last ≠ '*' := by simpa using ends
      simp [List.cons_prefix_cons, Ne.symm other]
  simp [globText, noDirectories, notAlone, noSlash, noEnd]

section Named

variable (nonempty : name ≠ []) (plain : ∀ char ∈ name, IsPlain char)
include nonempty plain

omit nonempty in
theorem not_mem_of_plain {special : Char}
    (is : special ∈ ['?', '*', '[', '\x7b', '\x7d', ',', '\\', '/', '#', '!']) : special ∉ name :=
  fun member => (plain special member).ne is rfl

theorem exists_last_plain : ∃ init last, name = init ++ [last] ∧ IsPlain last := by
  obtain ⟨init, last, rfl⟩ := (List.eq_nil_or_concat' name).resolve_left nonempty
  exact ⟨init, last, rfl, plain last (by simp)⟩

/-- A name with a slash behind it is about the directories of this name. -/
theorem ofLine?_directory :
    ofLine? (name ++ ['/']) = some ⟨inSequence (.leadingDirectories :: spelled name), false, true⟩ := by
  have ends : (name ++ ['/']).getLast? = some '/' := List.getLast?_concat
  have whole : trimLine (name ++ ['/']) = name ++ ['/'] := trimLine_of_getLast? ends (by decide)
  have mark : dropDirectoryMark (name ++ ['/']) = (name, true) := by
    obtain ⟨init, last, rfl, isPlain⟩ := exists_last_plain nonempty plain
    have other : last ≠ '\\' := isPlain.ne (by simp)
    simp [dropDirectoryMark, other]
  have text : globText false name = '*' :: '*' :: '/' :: name := by
    refine globText_of_not_mem (not_mem_of_plain plain (by simp)) (fun start => ?_) (fun ends => ?_)
    · exact not_mem_of_plain plain (by simp) (start.subset List.mem_cons_self)
    · exact not_mem_of_plain plain (by simp) (List.mem_of_getLast? ends)
  have read := Glob.ofText?_named nonempty plain
  obtain ⟨first, more, rfl⟩ := List.exists_cons_of_ne_nil nonempty
  have head : first ∉ ['\\', '#', '!', '/'] := by
    have special := (plain first List.mem_cons_self).2
    simp only [List.mem_cons, not_or] at special ⊢
    simp [special]
  rw [List.cons_append] at whole mark ⊢
  rw [ofLine?_of_head whole head, mark, text, read]
  rfl

/-- A star with the end of a name behind it is about everything with such a name. -/
theorem ofLine?_ending :
    ofLine? ('*' :: name) = some ⟨inSequence (.leadingDirectories :: .anyName :: spelled name), false, false⟩ := by
  obtain ⟨init, last, same, isPlain⟩ := exists_last_plain nonempty plain
  have ends : ('*' :: name).getLast? = some last := List.getLast?_eq_some_iff.mpr ⟨'*' :: init, by simp [same]⟩
  have whole : trimLine ('*' :: name) = '*' :: name := trimLine_of_getLast? ends isPlain.1
  have mark : dropDirectoryMark ('*' :: name) = ('*' :: name, false) := by
    have other : last ≠ '/' := isPlain.ne (by simp)
    simp [dropDirectoryMark, same, other]
  have text : globText false ('*' :: name) = '*' :: '*' :: '/' :: '*' :: name := by
    refine globText_of_not_mem ?_ (fun start => ?_) ?_
    · simpa using not_mem_of_plain plain (by simp)
    · exact not_mem_of_plain plain (by simp) ((List.cons_prefix_cons.mp start).2.subset List.mem_cons_self)
    · rw [ends]
      exact fun equal => isPlain.ne (by simp) (Option.some.inj equal)
  rw [ofLine?_of_head whole (by simp), mark, text, Glob.ofText?_ending nonempty plain]
  rfl

end Named

/-- Braces that stand in one another are a pattern for names in every directory. -/
theorem ofLine?_nestedText {count : Nat} (some : count ≠ 0) :
    ofLine? (Glob.nestedText count) =
      .some ⟨inSequence [.leadingDirectories, Glob.nested count], false, false⟩ := by
  obtain ⟨count, rfl⟩ := Nat.exists_eq_succ_of_ne_zero some
  have start : Glob.nestedText (count + 1) = '\x7b' :: (Glob.nestedText count ++ ['\x7d']) := by
    simpa using Glob.nestedText_succ count []
  have ends : (Glob.nestedText (count + 1)).getLast? = .some '\x7d' := by
    rw [start, ← List.cons_append]
    exact List.getLast?_concat
  have whole := trimLine_of_getLast? ends (by decide)
  have mark : dropDirectoryMark (Glob.nestedText (count + 1)) = (Glob.nestedText (count + 1), false) := by
    simp [dropDirectoryMark, start]
  have noSlash : '/' ∉ Glob.nestedText (count + 1) := by simp [Glob.nestedText]
  have text := globText_of_not_mem noSlash (by simp [start]) (by simp [ends])
  have read := Glob.ofText?_nested (count + 1)
  rw [start] at whole mark text read ⊢
  rw [ofLine?_of_head whole (by decide), mark, text, read]
  rfl

section Concern

/-- The last name of some is what stands behind the last slash. -/
theorem bytes_join_concat (before : List Text) (name : Text) :
    Path.bytes (Text.join ['/'] (before ++ [name])) = Path.bytes name ∨
      ∃ start, Path.bytes (Text.join ['/'] (before ++ [name])) = start ++ Glob.slash :: Path.bytes name := by
  by_cases alone : before = []
  · exact Or.inl (by simp [alone, Text.join])
  · refine Or.inr ⟨Path.bytes (Text.join ['/'] before), ?_⟩
    have slash : Path.bytes ('/' :: name) = Glob.slash :: Path.bytes name := rfl
    have single : Text.join ['/'] [name] = name := by simp [Text.join]
    rw [Text.join_append alone (List.cons_ne_nil _ _), single, Path.bytes_append, slash]

/-- A rule for directories of a name is about each directory of the name, wherever it is. -/
theorem concerns_directory (is : Path.IsText name) (before : List Text) :
    IgnoreRule.concerns ⟨inSequence (.leadingDirectories :: spelled name), false, true⟩
      (Path.bytes (Text.join ['/'] (before ++ [name]))) true = true := by
  simp only [concerns, Bool.or_true, Bool.true_and]
  rw [Glob.accepts_named_iff, ← Path.bytes_of_isText is]
  exact bytes_join_concat before name

/-- A rule for names with an end is about everything whose name ends so, wherever it is. -/
theorem concerns_ending {stem ending : Text} (apart : '/' ∉ stem) (is : Path.IsText ending)
    (before : List Text) (isDirectory : Bool) :
    IgnoreRule.concerns ⟨inSequence (.leadingDirectories :: .anyName :: spelled ending), false, false⟩
      (Path.bytes (Text.join ['/'] (before ++ [stem ++ ending]))) isDirectory = true := by
  simp only [concerns, Bool.not_false, Bool.true_or, Bool.true_and]
  refine Glob.accepts_ending_iff.mpr ⟨Path.bytes stem, fun member => ?_, ?_⟩
  · exact apart (Path.ofNat_mem_of_mem_bytes (by decide) member)
  · rw [← Path.bytes_of_isText is, ← Path.bytes_append]
    exact bytes_join_concat before (stem ++ ending)

end Concern

end IgnoreRule

/-- Where nothing is kept, one verdict that ignores is enough. -/
theorem Verdict.firstOf_eq_ignored_iff {verdicts : List Verdict} (never : .kept ∉ verdicts) :
    firstOf verdicts = .ignored ↔ .ignored ∈ verdicts := by
  induction verdicts with
  | nil => simp [firstOf]
  | cons verdict verdicts inductionHypothesis =>
      obtain ⟨different, others⟩ := List.ne_and_not_mem_of_not_mem_cons never
      rw [firstOf, List.foldr_cons, ← firstOf, List.mem_cons, ← inductionHypothesis others]
      cases verdict <;> simp_all [orElse]

namespace IgnoreList

variable {list : IgnoreList} {path : Path} {isDirectory : Bool}

section Verdict

variable (never : ∀ rule ∈ list.rules, rule.keeps = false)
include never

/-- A list without keeping rules ignores what one of its rules is about, and else has no say. -/
theorem lastVerdict_cases :
    (list.lastVerdict path isDirectory = .ignored ∧
      ∃ rule ∈ list.rules, rule.concerns (Path.bytes path) isDirectory = true) ∨
    (list.lastVerdict path isDirectory = .undecided ∧
      ∀ rule ∈ list.rules, rule.concerns (Path.bytes path) isDirectory = false) := by
  unfold lastVerdict
  simp only
  cases last : list.rules.reverse.find? fun rule => rule.concerns (Path.bytes path) isDirectory with
  | none =>
      refine Or.inr ⟨rfl, fun rule member => ?_⟩
      exact eq_false_of_ne_true (List.find?_eq_none.mp last rule (List.mem_reverse.mpr member))
  | some rule =>
      have member : rule ∈ list.rules := List.mem_reverse.mp (List.mem_of_find?_eq_some last)
      have concerned := List.find?_some last
      exact Or.inl ⟨by simp [never rule member], rule, member, by simpa using concerned⟩

theorem lastVerdict_eq_ignored_iff :
    list.lastVerdict path isDirectory = .ignored ↔
      ∃ rule ∈ list.rules, rule.concerns (Path.bytes path) isDirectory = true := by
  rcases lastVerdict_cases never with ⟨ignored, concerned⟩ | ⟨undecided, unconcerned⟩
  · exact iff_of_true ignored concerned
  · refine iff_of_false (by simp [undecided]) ?_
    rintro ⟨rule, member, concerned⟩
    simp [unconcerned rule member] at concerned

theorem lastVerdict_ne_kept : list.lastVerdict path isDirectory ≠ .kept := by
  rcases @lastVerdict_cases list path isDirectory never with ⟨verdict, -⟩ | ⟨verdict, -⟩ <;> simp [verdict]

/-- Rules of which none keeps anything ignore a path when one of them is about it or about a directory above
it. -/
theorem verdictUpwards_eq_ignored_iff :
    list.verdictUpwards path isDirectory = .ignored ↔ ∃ rule ∈ list.rules,
      rule.concerns (Path.bytes (list.relative path)) isDirectory = true ∨
        ∃ above ∈ Path.ancestors (list.relative path), rule.concerns (Path.bytes above) true = true := by
  have upwards : list.verdictUpwards path isDirectory =
      Verdict.firstOf (list.lastVerdict (list.relative path) isDirectory ::
        (Path.ancestors (list.relative path)).map fun above => list.lastVerdict above true) := rfl
  have noneKept : Verdict.kept ∉ list.lastVerdict (list.relative path) isDirectory ::
      (Path.ancestors (list.relative path)).map fun above => list.lastVerdict above true := by
    simp [Ne.symm (lastVerdict_ne_kept never), lastVerdict_ne_kept never]
  rw [upwards, Verdict.firstOf_eq_ignored_iff noneKept, List.mem_cons, List.mem_map, eq_comm,
    lastVerdict_eq_ignored_iff never]
  simp only [lastVerdict_eq_ignored_iff never]
  constructor
  · rintro (⟨rule, member, concerned⟩ | ⟨above, isAbove, rule, member, concerned⟩)
    · exact ⟨rule, member, Or.inl concerned⟩
    · exact ⟨rule, member, Or.inr ⟨above, isAbove, concerned⟩⟩
  · rintro ⟨rule, member, concerned | ⟨above, isAbove, concerned⟩⟩
    · exact Or.inl ⟨rule, member, concerned⟩
    · exact Or.inr ⟨above, isAbove, rule, member, concerned⟩

end Verdict

end IgnoreList

end BranchCatalog
