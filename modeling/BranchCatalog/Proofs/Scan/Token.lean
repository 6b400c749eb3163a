import BranchCatalog.Scan.Pattern
import BranchCatalog.Scan.Token
import BranchCatalog.Proofs.Text.Pieces

namespace BranchCatalog

namespace Scan

theorem chainFrom_ne_nil (first : Char) (text : Text) : (chainFrom first text).1 ≠ [] := by
  fun_induction chainFrom first text <;> simp

/-- The identifiers of a chain, with the dots between them, are what the chain is read from. -/
theorem join_chainFrom (first : Char) (text : Text) :
    Text.join ['.'] (chainFrom first text).1 ++ (chainFrom first text).2 = first :: text := by
  have whole (text : Text) : text.takeWhile Text.isWord ++ text.dropWhile Text.isWord = text :=
    List.takeWhile_append_dropWhile
  fun_induction chainFrom first text with
  | case1 first text identifier second rest stopped start identifiers left read inductionHypothesis =>
      have more : identifiers ≠ [] := by
        have nonempty := chainFrom_ne_nil second rest
        rwa [read] at nonempty
      rw [read] at inductionHypothesis
      have parts := whole text
      rw [stopped] at parts
      rw [Text.join_cons_of_ne_nil more]
      simp [inductionHypothesis, identifier, parts]
  | case2 first text identifier second rest stopped start =>
      have parts := whole text
      rw [stopped] at parts
      simp [Text.join, identifier, parts]
  | case3 first text identifier stopped =>
      simp [Text.join, identifier, whole text]

/-- A text of word characters, at least one. -/
def IsWordText (text : Text) : Prop :=
  text ≠ [] ∧ ∀ char ∈ text, Text.isWord char = true

theorem isWordText_of_mem_chainFrom {first : Char} {text : Text} (start : Text.isWord first = true) :
    ∀ identifier ∈ (chainFrom first text).1, IsWordText identifier := by
  have word (first : Char) (text : Text) (start : Text.isWord first = true) :
      IsWordText (first :: text.takeWhile Text.isWord) := by
    refine ⟨List.cons_ne_nil _ _, List.forall_mem_cons.mpr ⟨start, ?_⟩⟩
    exact fun char inside => List.all_eq_true.mp List.all_takeWhile char inside
  fun_induction chainFrom first text with
  | case1 first text identifier second rest stopped more identifiers left read inductionHypothesis =>
      have later := inductionHypothesis (Text.isWord_of_isIdentifierStart more)
      rw [read] at later
      exact List.forall_mem_cons.mpr ⟨word first text start, later⟩
  | case2 first text identifier second rest stopped more =>
      exact List.forall_mem_singleton.mpr (word first text start)
  | case3 first text identifier stopped => exact List.forall_mem_singleton.mpr (word first text start)

/-- A chain stands in the text that it is found in, and its identifiers are words. -/
theorem of_mem_chains {text : Text} {chain : List Text} (member : chain ∈ chains text) :
    Text.join ['.'] chain <:+: text ∧ ∀ identifier ∈ chain, IsWordText identifier := by
  fun_induction chains text with
  | case1 => contradiction
  | case2 char rest start inductionHypothesis =>
      rcases List.mem_cons.mp member with rfl | later
      · refine ⟨?_, isWordText_of_mem_chainFrom (Text.isWord_of_isIdentifierStart start)⟩
        rw [← join_chainFrom char rest]
        exact (List.prefix_append _ _).isInfix
      · obtain ⟨inside, words⟩ := inductionHypothesis later
        refine ⟨inside.trans ?_, words⟩
        rw [← join_chainFrom char rest]
        exact (List.suffix_append _ _).isInfix
  | case3 char rest other inductionHypothesis =>
      obtain ⟨inside, words⟩ := inductionHypothesis member
      exact ⟨inside.trans (List.suffix_cons char rest).isInfix, words⟩

/-- The tokens of a line are the parts of its chains and the starts of these. -/
theorem mem_lineTokens_iff {line token : Text} :
    token ∈ lineTokens line ↔ ∃ chain ∈ chains (withoutLiterals line),
      token ∈ chain ∨ ∃ count < chain.length, Text.join ['.'] (chain.take (count + 1)) = token := by
  simp only [lineTokens, List.mem_eraseDups, List.mem_flatMap, chainTokens, List.mem_append,
    List.mem_map, List.mem_range]

/-- A token of a line is part of a chain on the line. -/
theorem exists_chain_of_mem_lineTokens {line token : Text} (member : token ∈ lineTokens line) :
    ∃ chain ∈ chains (withoutLiterals line), token <:+: Text.join ['.'] chain := by
  obtain ⟨chain, found, identifier | ⟨count, -, rfl⟩⟩ := mem_lineTokens_iff.mp member
  · exact ⟨chain, found, Text.infix_join_of_mem identifier⟩
  · exact ⟨chain, found, (Text.join_take_prefix chain _).isInfix⟩

/-- A token stands in the line without its literals. -/
theorem infix_of_mem_lineTokens {line token : Text} (member : token ∈ lineTokens line) :
    token <:+: withoutLiterals line := by
  obtain ⟨chain, found, inside⟩ := exists_chain_of_mem_lineTokens member
  exact inside.trans (of_mem_chains found).1

theorem ne_nil_of_mem_lineTokens {line token : Text} (member : token ∈ lineTokens line) :
    token ≠ [] := by
  obtain ⟨chain, found, identifier | ⟨count, below, rfl⟩⟩ := mem_lineTokens_iff.mp member
  · exact ((of_mem_chains found).2 token identifier).1
  · cases chain with
    | nil => simp at below
    | cons first rest =>
        have inside : first <:+: Text.join ['.'] ((first :: rest).take (count + 1)) :=
          Text.infix_join_of_mem (by simp)
        rintro same
        rw [same, List.infix_nil] at inside
        exact ((of_mem_chains found).2 first List.mem_cons_self).1 inside

/-- A token is made of word characters and dots. -/
theorem isChainChar_of_mem_lineTokens {line token : Text} (member : token ∈ lineTokens line) :
    ∀ char ∈ token, isChainChar char = true := by
  intro char inside
  obtain ⟨chain, found, part⟩ := exists_chain_of_mem_lineTokens member
  rcases Text.mem_join_iff_of_singleton (part.subset inside) with rfl | ⟨identifier, listed, here⟩
  · rfl
  · rw [isChainChar, ((of_mem_chains found).2 identifier listed).2 char here, Bool.true_or]

/-- A token holds word characters and dots only. -/
theorem not_mem_of_mem_lineTokens {line token : Text} (member : token ∈ lineTokens line) {char : Char}
    (other : isChainChar char = false) : char ∉ token := by
  intro inside
  rw [isChainChar_of_mem_lineTokens member char inside] at other
  contradiction

end Scan

end BranchCatalog
