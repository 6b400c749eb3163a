import BranchCatalog.Proofs.Scan.CodeLine

namespace BranchCatalog

namespace Scan

/-- A word that starts like a name in code. -/
def IsIdentifier (text : Text) : Prop :=
  ∃ first rest, text = first :: rest ∧ Text.isIdentifierStart first = true ∧
    ∀ char ∈ rest, Text.isWord char = true

/-- Identifiers with a dot between neighbours, at least one. -/
def IsMemberChain (text : Text) : Prop :=
  ∃ identifiers, identifiers ≠ [] ∧ (∀ identifier ∈ identifiers, IsIdentifier identifier) ∧
    text = Text.join ['.'] identifiers

/-- The chains that are found when a text is read from left to right, each as long as it can be. -/
inductive FindsChains : Text → List Text → Prop where
  | nothing : FindsChains [] []
  | pass {char : Char} {rest : Text} {found : List Text}
      (starts : Text.isIdentifierStart char = false) (further : FindsChains rest found) :
      FindsChains (char :: rest) found
  | take {chain rest : Text} {found : List Text} (is : IsMemberChain chain)
      (longest : ∀ longer, IsMemberChain longer → longer <+: chain ++ rest → longer <+: chain)
      (further : FindsChains rest found) : FindsChains (chain ++ rest) (chain :: found)

/-- The tokens of a chain are its identifiers, its starts before a dot and the chain itself. -/
def IsTokenOf (token chain : Text) : Prop :=
  token ∈ Text.split '.' chain ∨ token ++ ['.'] <+: chain ∨ token = chain

section Chain

variable {identifiers : List Text} {chain token : Text}

theorem IsIdentifier.isWordText (is : IsIdentifier token) : IsWordText token := by
  obtain ⟨first, rest, rfl, starts, words⟩ := is
  exact ⟨List.cons_ne_nil _ _,
    List.forall_mem_cons.mpr ⟨Text.isWord_of_isIdentifierStart starts, words⟩⟩

theorem IsIdentifier.dot_not_mem (is : IsIdentifier token) : '.' ∉ token := by
  intro member
  have word := is.isWordText.2 '.' member
  revert word
  decide

theorem IsMemberChain.exists_start (is : IsMemberChain chain) :
    ∃ first rest, chain = first :: rest ∧ Text.isIdentifierStart first = true := by
  obtain ⟨identifiers, nonempty, all, rfl⟩ := is
  obtain ⟨identifier, others, rfl⟩ := List.exists_cons_of_ne_nil nonempty
  obtain ⟨first, rest, rfl, starts, -⟩ := all identifier List.mem_cons_self
  by_cases more : others = []
  · exact ⟨first, rest, by simp [more, Text.join], starts⟩
  · exact ⟨first, _, by rw [Text.join_cons_of_ne_nil more]; rfl, starts⟩

/-- The tokens that a chain gives, said of its identifiers. -/
theorem isTokenOf_join_iff (nonempty : identifiers ≠ [])
    (all : ∀ identifier ∈ identifiers, IsIdentifier identifier) :
    IsTokenOf token (Text.join ['.'] identifiers) ↔ token ∈ identifiers ∨
      ∃ count < identifiers.length, Text.join ['.'] (identifiers.take (count + 1)) = token := by
  have apart : ∀ identifier ∈ identifiers, '.' ∉ identifier :=
    fun identifier member => (all identifier member).dot_not_mem
  rw [IsTokenOf, Text.split_join nonempty apart, Text.prefix_join_iff apart]
  refine or_congr_right ?_
  constructor
  · rintro (⟨count, below, rfl⟩ | rfl)
    · exact ⟨count, by omega, rfl⟩
    · have positive := List.length_pos_iff.mpr nonempty
      exact ⟨identifiers.length - 1, by omega, by rw [Nat.sub_add_cancel positive, List.take_length]⟩
  · rintro ⟨count, below, rfl⟩
    by_cases last : count + 1 = identifiers.length
    · exact Or.inr (by rw [last, List.take_length])
    · exact Or.inl ⟨count, by omega, rfl⟩

end Chain

section Longest

theorem isIdentifier_of_mem_chainFrom {first : Char} {text : Text}
    (starts : Text.isIdentifierStart first = true) :
    ∀ identifier ∈ (chainFrom first text).1, IsIdentifier identifier := by
  have word (first : Char) (text : Text) (starts : Text.isIdentifierStart first = true) :
      IsIdentifier (first :: text.takeWhile Text.isWord) :=
    ⟨first, _, rfl, starts, fun _ inside => List.all_eq_true.mp List.all_takeWhile _ inside⟩
  fun_induction chainFrom first text with
  | case1 first text identifier second rest stopped more identifiers left read inductionHypothesis =>
      have later := inductionHypothesis more
      rw [read] at later
      exact List.forall_mem_cons.mpr ⟨word first text starts, later⟩
  | case2 first text identifier second rest stopped more =>
      exact List.forall_mem_singleton.mpr (word first text starts)
  | case3 first text identifier stopped =>
      exact List.forall_mem_singleton.mpr (word first text starts)

/-- Identifiers with dots between them that stand at the start of a text: there is one identifier, or the first
one is followed by a dot and the others. -/
theorem exists_of_prefix {first : Char} {text identifier : Text} {others : List Text}
    (all : ∀ member ∈ identifier :: others, IsIdentifier member)
    (start : Text.join ['.'] (identifier :: others) <+: first :: text) :
    others = [] ∧ identifier <+: first :: text.takeWhile Text.isWord ∨
      identifier = first :: text.takeWhile Text.isWord ∧ ∃ second rest,
        text.dropWhile Text.isWord = '.' :: second :: rest ∧
        Text.isIdentifierStart second = true ∧ others ≠ [] ∧
        Text.join ['.'] others <+: second :: rest := by
  obtain ⟨head, letters, rfl, -, words⟩ := all identifier List.mem_cons_self
  by_cases more : others = []
  · subst more
    rw [Text.join, List.intercalate_singleton, List.cons_prefix_cons] at start
    obtain ⟨rfl, rest, rfl⟩ := start
    rw [List.takeWhile_append_of_pos words]
    exact Or.inl ⟨rfl, (List.prefix_append_right_inj [head]).mpr (List.prefix_append letters _)⟩
  · have chain : IsMemberChain (Text.join ['.'] others) :=
      ⟨others, more, fun member inside => all member (List.mem_cons_of_mem _ inside), rfl⟩
    obtain ⟨second, rest, spelled, starts⟩ := chain.exists_start
    rw [Text.join_cons_of_ne_nil more, List.append_assoc, List.cons_append,
      List.cons_prefix_cons] at start
    obtain ⟨rfl, behind, rfl⟩ := start
    have dot : Text.isWord '.' = false := by decide
    refine Or.inr ⟨?_, second, rest ++ behind, ?_, starts, more, ?_⟩
    · rw [List.append_assoc, List.takeWhile_append_of_pos words]
      simp [dot]
    · rw [List.append_assoc, List.dropWhile_append_of_pos words]
      simp [dot, spelled]
    · rw [spelled]
      exact List.prefix_append (second :: rest) behind

/-- No chain at the start of a text is longer than the one that is read there. -/
theorem prefix_join_chainFrom (first : Char) (text : Text) {longer : Text} (is : IsMemberChain longer)
    (start : longer <+: first :: text) : longer <+: Text.join ['.'] (chainFrom first text).1 := by
  obtain ⟨identifiers, nonempty, all, rfl⟩ := is
  fun_induction chainFrom first text generalizing identifiers with
  | case1 first text identifier second rest stopped more read left found inductionHypothesis =>
      have readMore : read ≠ [] := by
        have nonempty := chainFrom_ne_nil second rest
        rwa [found] at nonempty
      rw [found] at inductionHypothesis
      rw [Text.join_cons_of_ne_nil readMore]
      obtain ⟨head, others, rfl⟩ := List.exists_cons_of_ne_nil nonempty
      rcases exists_of_prefix all start with
        ⟨rfl, alone⟩ | ⟨rfl, next, behind, follows, -, others, goesOn⟩
      · rw [Text.join, List.intercalate_singleton, List.append_assoc]
        exact alone.trans (List.prefix_append _ _)
      · obtain ⟨-, rfl, rfl⟩ : '.' = '.' ∧ second = next ∧ rest = behind := by
          simpa [stopped] using follows
        rw [Text.join_cons_of_ne_nil others]
        exact (List.prefix_append_right_inj _).mpr (inductionHypothesis _ others
          (fun member inside => all member (List.mem_cons_of_mem _ inside)) goesOn)
  | case2 first text identifier second rest stopped ends =>
      obtain ⟨head, others, rfl⟩ := List.exists_cons_of_ne_nil nonempty
      rcases exists_of_prefix all start with ⟨rfl, alone⟩ | ⟨-, next, behind, follows, starts, -⟩
      · simpa [Text.join] using alone
      · obtain ⟨-, rfl, -⟩ : '.' = '.' ∧ second = next ∧ rest = behind := by
          simpa [stopped] using follows
        exact absurd starts ends
  | case3 first text identifier stopped =>
      obtain ⟨head, others, rfl⟩ := List.exists_cons_of_ne_nil nonempty
      rcases exists_of_prefix all start with ⟨rfl, alone⟩ | ⟨-, next, behind, follows, -⟩
      · simpa [Text.join] using alone
      · exact absurd follows (stopped next behind)

/-- The chains of a text are those that are found in it. -/
theorem findsChains_chains (text : Text) :
    FindsChains text ((chains text).map (Text.join ['.'])) := by
  fun_induction chains text with
  | case1 => exact .nothing
  | case2 char rest starts inductionHypothesis =>
      have is : IsMemberChain (Text.join ['.'] (chainFrom char rest).1) :=
        ⟨_, chainFrom_ne_nil char rest, isIdentifier_of_mem_chainFrom starts, rfl⟩
      have longest : ∀ longer, IsMemberChain longer →
          longer <+: Text.join ['.'] (chainFrom char rest).1 ++ (chainFrom char rest).2 →
            longer <+: Text.join ['.'] (chainFrom char rest).1 := by
        intro longer chain start
        rw [join_chainFrom] at start
        exact prefix_join_chainFrom char rest chain start
      have taken := FindsChains.take is longest inductionHypothesis
      rwa [join_chainFrom] at taken
  | case3 char rest starts inductionHypothesis =>
      exact .pass (eq_false_of_ne_true starts) inductionHypothesis

/-- Reading a text from left to right finds one list of chains. -/
theorem FindsChains.unique {text : Text} {found others : List Text} (finds : FindsChains text found)
    (alsoFinds : FindsChains text others) : others = found := by
  induction finds generalizing others with
  | nothing =>
      generalize whole : ([] : Text) = text at alsoFinds
      cases alsoFinds with
      | nothing => rfl
      | pass => contradiction
      | take is =>
          obtain ⟨first, rest, rfl, -⟩ := is.exists_start
          contradiction
  | @pass char rest found starts _ inductionHypothesis =>
      generalize whole : char :: rest = text at alsoFinds
      cases alsoFinds with
      | nothing => contradiction
      | pass _ further =>
          obtain ⟨rfl, rfl⟩ := List.cons.inj whole
          exact inductionHypothesis further
      | take is =>
          obtain ⟨first, more, rfl, alsoStarts⟩ := is.exists_start
          obtain ⟨rfl, -⟩ := List.cons.inj whole
          rw [starts] at alsoStarts
          contradiction
  | @take chain rest found is longest _ inductionHypothesis =>
      generalize whole : chain ++ rest = text at alsoFinds
      cases alsoFinds with
      | nothing =>
          obtain ⟨first, more, rfl, -⟩ := is.exists_start
          contradiction
      | pass alsoStarts =>
          obtain ⟨first, more, rfl, starts⟩ := is.exists_start
          obtain ⟨rfl, -⟩ := List.cons.inj whole
          rw [starts] at alsoStarts
          contradiction
      | @take other behind _ alsoIs alsoLongest further =>
          -- each of the two chains is as long as the other
          have shorter : chain <+: other := alsoLongest chain is (whole ▸ List.prefix_append chain rest)
          have longer : other <+: chain := longest other alsoIs (whole ▸ List.prefix_append other behind)
          obtain rfl := shorter.eq_of_length_le longer.length_le
          obtain rfl := List.append_cancel_left whole
          rw [inductionHypothesis further]

end Longest

section Line

variable {line token : Text}

/-- A text has a token when one of the chains that are found in it gives the token. -/
def HasToken (text token : Text) : Prop :=
  ∃ found, FindsChains text found ∧ ∃ chain ∈ found, IsTokenOf token chain

/-- A text has the tokens of its chains. -/
theorem hasToken_iff_of_findsChains {text : Text} {found : List Text} (finds : FindsChains text found) :
    HasToken text token ↔ ∃ chain ∈ found, IsTokenOf token chain := by
  constructor
  · rintro ⟨others, alsoFinds, gives⟩
    rwa [finds.unique alsoFinds] at gives
  · exact fun gives => ⟨found, finds, gives⟩

/-- Every chain that is found is one. -/
theorem isMemberChain_of_mem_chains {text : Text} {chain : List Text} (member : chain ∈ chains text) :
    chain ≠ [] ∧ ∀ identifier ∈ chain, IsIdentifier identifier := by
  fun_induction chains text with
  | case1 => contradiction
  | case2 char rest starts inductionHypothesis =>
      rcases List.mem_cons.mp member with rfl | later
      · exact ⟨chainFrom_ne_nil char rest, isIdentifier_of_mem_chainFrom starts⟩
      · exact inductionHypothesis later
  | case3 char rest starts inductionHypothesis => exact inductionHypothesis member

/-- The tokens of a line are those that it has with its literals emptied. -/
theorem mem_lineTokens_iff_hasToken :
    token ∈ lineTokens line ↔ HasToken (withoutLiterals line) token := by
  rw [mem_lineTokens_iff, hasToken_iff_of_findsChains (findsChains_chains _)]
  constructor
  · rintro ⟨chain, member, gives⟩
    obtain ⟨nonempty, all⟩ := isMemberChain_of_mem_chains member
    exact ⟨_, List.mem_map_of_mem member, (isTokenOf_join_iff nonempty all).mpr gives⟩
  · rintro ⟨_, member, gives⟩
    obtain ⟨chain, listed, rfl⟩ := List.mem_map.mp member
    obtain ⟨nonempty, all⟩ := isMemberChain_of_mem_chains listed
    exact ⟨chain, listed, (isTokenOf_join_iff nonempty all).mp gives⟩

theorem IsMemberChain.quote_not_mem {chain : Text} (is : IsMemberChain chain) : '"' ∉ chain := by
  obtain ⟨identifiers, -, all, rfl⟩ := is
  intro member
  rcases Text.mem_join_iff_of_singleton member with same | ⟨identifier, listed, inside⟩
  · revert same
    decide
  · have word := (all identifier listed).isWordText.2 '"' inside
    revert word
    decide

theorem FindsChains.append_quote {before after : Text} {found others : List Text}
    (finds : FindsChains before found) (alsoFinds : FindsChains after others) :
    FindsChains (before ++ '"' :: after) (found ++ others) := by
  induction finds with
  | nothing => exact .pass (by decide) alsoFinds
  | pass starts _ inductionHypothesis => exact .pass starts inductionHypothesis
  | @take chain rest found is longest _ inductionHypothesis =>
      rw [List.append_assoc]
      refine .take is (fun longer alsoIs start => ?_) inductionHypothesis
      rw [← List.append_assoc] at start
      rcases List.prefix_or_prefix_of_prefix start (List.prefix_append _ _) with short | ⟨behind, same⟩
      · exact longest longer alsoIs short
      · obtain ⟨left, split⟩ := start
        cases behind with
        | nil => exact longest longer alsoIs (by rw [← same, List.append_nil])
        | cons char behind =>
            rw [← same, List.append_assoc, List.append_cancel_left_eq, List.cons_append] at split
            have quote : char = '"' := (List.cons.inj split).1
            exact absurd (same ▸ quote ▸ by simp) alsoIs.quote_not_mem

/-- A line with its literals emptied has the tokens of its pieces of code. -/
theorem hasToken_emptied_iff (cut : CodeLine) :
    HasToken cut.emptied token ↔ ∃ piece ∈ cut.pieces, HasToken piece token := by
  induction cut with
  | code piece => simp [CodeLine.emptied, CodeLine.pieces]
  | literal piece body behind inductionHypothesis =>
      have here := findsChains_chains piece
      have further := findsChains_chains behind.emptied
      have whole : FindsChains (CodeLine.literal piece body behind).emptied _ :=
        here.append_quote (.pass (by decide) further)
      rw [CodeLine.pieces, List.exists_mem_cons_iff, ← inductionHypothesis, hasToken_iff_of_findsChains here,
        hasToken_iff_of_findsChains further, hasToken_iff_of_findsChains whole]
      simp only [List.mem_append, or_and_right, exists_or]

/-- The tokens of a line are those of the longest member chains that are found, from left to right, in the line
with its complete literals emptied, each of them once. They are the tokens of the pieces of code between the
literals, and they stay when the literals are exchanged. -/
theorem lineTokens_of_found_chains (line : Text) :
    (lineTokens line).Nodup ∧ ∃ cut : CodeLine, cut.text = line ∧ cut.IsLeftmost ∧
      (∀ other : CodeLine, other.text = line → other.IsLeftmost → other = cut) ∧
      (∃ found, FindsChains cut.emptied found ∧
        (∀ others, FindsChains cut.emptied others → others = found) ∧
        ∀ token, token ∈ lineTokens line ↔ ∃ chain ∈ found, IsTokenOf token chain) ∧
      (∀ token, token ∈ lineTokens line ↔ ∃ piece ∈ cut.pieces, HasToken piece token) ∧
      (∀ token, (∀ piece ∈ cut.pieces, ¬ token <:+: piece) → token ∉ lineTokens line) ∧
      ∀ other : CodeLine, other.pieces = cut.pieces → (∀ body ∈ other.bodies, IsLiteralBody body) →
        lineTokens other.text = lineTokens line := by
  obtain ⟨cut, rfl, leftmost⟩ := CodeLine.exists_isLeftmost line
  have emptied : withoutLiterals cut.text = cut.emptied := CodeLine.withoutLiterals_text leftmost
  have finds := findsChains_chains cut.emptied
  have tokens (token : Text) : token ∈ lineTokens cut.text ↔ HasToken cut.emptied token := by
    rw [mem_lineTokens_iff_hasToken, emptied]
  refine ⟨nodup_eraseDups _, cut, rfl, leftmost, ?_, ⟨_, finds, fun _ => finds.unique, ?_⟩, ?_, ?_, ?_⟩
  · exact fun other same alsoLeftmost => CodeLine.eq_of_isLeftmost leftmost alsoLeftmost same
  · exact fun token => (tokens token).trans (hasToken_iff_of_findsChains finds)
  · exact fun token => (tokens token).trans (hasToken_emptied_iff cut)
  · intro token nowhere member
    have unquoted : '"' ∉ token := not_mem_of_mem_lineTokens member (by decide)
    obtain ⟨piece, listed, inside⟩ := CodeLine.exists_piece_of_infix unquoted
      (ne_nil_of_mem_lineTokens member) (emptied ▸ infix_of_mem_lineTokens member)
    exact nowhere piece listed inside
  · intro other same complete
    obtain ⟨alsoLeftmost, alsoEmptied⟩ := CodeLine.of_pieces_eq leftmost same complete
    rw [lineTokens, lineTokens, CodeLine.withoutLiterals_text alsoLeftmost, alsoEmptied, emptied]

/-- A literal with an escaped quote keeps two chains apart and hides its words, and a quote that starts no
literal hides none. -/
theorem lineTokens_of_found_chains_of_escaped_quote :
    let behind := CodeLine.code ".u + v; \"w".toList
    let cut := CodeLine.literal "s.t.".toList "p.q\\\" v2".toList behind
    cut.IsLeftmost ∧
      lineTokens cut.text = [['s'], ['t'], "s.t".toList, ['u'], ['v'], ['w']] ∧
      "v2".toList ∉ lineTokens cut.text ∧
      lineTokens (CodeLine.literal "s.t.".toList "x.y".toList behind).text = lineTokens cut.text := by
  intro behind cut
  have is : IsLiteralBody "p.q\\\" v2".toList :=
    .plain (by decide) (by decide) <| .plain (by decide) (by decide) <| .plain (by decide) (by decide) <|
      .escaped '"' <| .plain (by decide) (by decide) <| .plain (by decide) (by decide) <|
      .plain (by decide) (by decide) .empty
  have alsoIs : IsLiteralBody "x.y".toList :=
    .plain (by decide) (by decide) <| .plain (by decide) (by decide) <| .plain (by decide) (by decide) .empty
  have startsNone : CodeLine.StartsNone ".u + v; \"w".toList [] := by
    intro before after split
    have once : List.count '"' ".u + v; \"w".toList = 1 := by decide
    rw [split, List.count_append, List.count_cons_self] at once
    have absent : '"' ∉ before := List.count_eq_zero.mp (by omega)
    have whole : ".u + v; ".toList ++ '"' :: ['w'] = before ++ '"' :: after := split
    obtain ⟨-, rfl⟩ := eq_of_append_cons_eq (by decide) absent whole
    exact afterLiteral?_eq_none_iff.mp (by decide)
  have leftmost : cut.IsLeftmost := CodeLine.isLeftmost_literal_iff.mpr ⟨by decide, is, startsNone⟩
  obtain ⟨-, found, -, -, unique, -, -, nowhere, exchanged⟩ := lineTokens_of_found_chains cut.text
  obtain rfl := unique cut rfl leftmost
  refine ⟨leftmost, by decide +kernel, nowhere _ (by decide +kernel), exchanged _ rfl ?_⟩
  exact List.forall_mem_singleton.mpr alsoIs

end Line

end Scan

end BranchCatalog
