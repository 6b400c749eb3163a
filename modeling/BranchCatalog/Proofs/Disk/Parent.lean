import BranchCatalog.Proofs.Disk.Follow
import BranchCatalog.Proofs.Failure

namespace BranchCatalog

namespace Path

/-- Pieces without a meaningful start say nothing. -/
theorem meaning_eq_zero_of_starts {before pieces : List Text}
    (none : meaningfulStarts before pieces = []) : meaning pieces = 0 := by
  induction pieces generalizing before with
  | nil => rfl
  | cons piece pieces inductionHypothesis =>
      simp only [meaningfulStarts] at none
      split at none
      · next void => rw [meaning_cons_of_void void, inductionHypothesis none]
      · contradiction

/-- The start before the last one leaves out a single piece with a meaning. -/
theorem exists_rest_of_starts {nearest voids pieces above : List Text}
    (meaningless : meaning voids = 0)
    (found : (nearest :: meaningfulStarts (nearest ++ voids) pieces).dropLast.getLast? = some above) :
    ∃ more rest, above = nearest ++ more ∧ nearest ++ voids ++ pieces = above ++ rest ∧
      meaning rest ≤ 1 := by
  induction pieces generalizing nearest voids with
  | nil => simp [meaningfulStarts] at found
  | cons piece pieces inductionHypothesis =>
      simp only [meaningfulStarts] at found
      split at found
      · next void =>
          -- a piece without meaning begins no new start and only makes the part behind the last one longer
          have longer : meaning (voids ++ [piece]) = 0 := by
            simpa [meaning, List.countP_append, void] using meaningless
          rw [List.append_assoc] at found
          obtain ⟨more, rest, same, whole, short⟩ := inductionHypothesis longer found
          exact ⟨more, rest, same, by simpa using whole, short⟩
      · next speaks =>
          have speaking : isVoid piece = false := Bool.eq_false_iff.mpr speaks
          cases later : meaningfulStarts (nearest ++ voids ++ [piece]) pieces with
          | nil =>
              -- this piece is the last one with a meaning, and it is the one that is left out
              rw [later] at found
              obtain rfl : nearest = above := by simpa using found
              refine ⟨[], voids ++ piece :: pieces, by simp, by simp, ?_⟩
              have silent := meaning_eq_zero_of_starts later
              simp only [meaning, List.countP_append] at meaningless silent ⊢
              simp [meaningless, silent, speaking]
          | cons next others =>
              have further : ((nearest ++ voids ++ [piece]) ::
                  meaningfulStarts (nearest ++ voids ++ [piece] ++ []) pieces).dropLast.getLast? =
                    some above := by
                simp only [List.append_nil, later, List.dropLast_cons_cons,
                  List.getLast?_cons_cons] at found ⊢
                exact found
              obtain ⟨more, rest, same, whole, short⟩ := inductionHypothesis rfl further
              exact ⟨voids ++ piece :: more, rest, by simpa using same, by simpa using whole, short⟩

/-- The first piece of an absolute path is empty. -/
theorem split_of_absolute {path : Path} (absolute : isAbsolute path = true) :
    Text.split '/' path = [] :: Text.split '/' (path.drop 1) := by
  cases path with
  | nil => contradiction
  | cons char rest =>
      obtain rfl : char = '/' := by simpa [isAbsolute] using absolute
      rfl

/-- The first piece of a relative path is not empty. -/
theorem split_of_relative {path : Path} (relative : isAbsolute path = false) (nonempty : path ≠ []) :
    ∃ char piece pieces, Text.split '/' path = (char :: piece) :: pieces := by
  cases path with
  | nil => contradiction
  | cons char rest =>
      have different : char ≠ '/' := by simpa [isAbsolute] using relative
      simp only [Text.split, different, if_false]
      split
      · next empty => exact absurd empty (Text.split_ne_nil '/' rest)
      · next piece pieces _ => exact ⟨char, piece, pieces, rfl⟩

theorem isAbsolute_of_split {path : Path} {char : Char} {piece : Text} {pieces : List Text}
    (split : Text.split '/' path = (char :: piece) :: pieces) : isAbsolute path = false := by
  cases absolute : isAbsolute path with
  | false => rfl
  | true =>
      rw [split_of_absolute absolute] at split
      cases split

/-- Above an absolute path is its longest shorter start, behind a slash. -/
theorem parent?_of_absolute {path : Path} (absolute : isAbsolute path = true) :
    parent? path =
      (([] :: meaningfulStarts [] (Text.split '/' (path.drop 1))).dropLast.getLast?).map
        fun start => '/' :: Text.join ['/'] start := by
  simp only [parent?, ancestors, absolute, if_true, List.head?_map, List.head?_reverse]

/-- Above a relative path is its longest shorter start, or nothing at all. -/
theorem parent?_of_relative {path : Path} (relative : isAbsolute path = false) (nonempty : path ≠ []) :
    parent? path =
      (([] :: (Text.split '/' path).take 1 :: meaningfulStarts ((Text.split '/' path).take 1)
        ((Text.split '/' path).drop 1)).dropLast.getLast?).map (Text.join ['/']) := by
  simp only [parent?, ancestors, relative, nonempty, List.isEmpty_iff, Bool.false_eq_true, if_false,
    List.head?_map, List.head?_reverse]

/-- The pieces of a path that has no path above it have no meaning. -/
theorem meaning_of_parent?_eq_none {path : Path} (nonempty : path ≠ []) (none : parent? path = none) :
    isAbsolute path = true ∧ meaning (Text.split '/' path) = 0 := by
  cases absolute : isAbsolute path with
  | false =>
      rw [parent?_of_relative absolute nonempty, Option.map_eq_none_iff] at none
      contradiction
  | true =>
      refine ⟨rfl, ?_⟩
      rw [split_of_absolute absolute, meaning_cons_of_void rfl]
      rw [parent?_of_absolute absolute, Option.map_eq_none_iff] at none
      cases starts : meaningfulStarts [] (Text.split '/' (path.drop 1)) with
      | nil => exact meaning_eq_zero_of_starts starts
      | cons first others =>
          rw [starts] at none
          contradiction

/-- The first pieces of a text are found again in the text that they are joined to. -/
theorem split_join_of_split {text : Text} {first rest : List Text} (nonempty : first ≠ [])
    (split : Text.split '/' text = first ++ rest) :
    Text.split '/' (Text.join ['/'] first) = first := by
  apply Text.split_join nonempty
  intro piece member
  apply Text.not_mem_of_mem_split
  rw [split]
  exact List.mem_append_left rest member

/-- Behind the path above an absolute path at most one piece says something. -/
theorem split_of_absolute_parent {path above : Path} (absolute : isAbsolute path = true)
    (parent : parent? path = some above) :
    isAbsolute above = true ∧ ∃ first rest, Text.split '/' path = first ++ rest ∧ meaning rest ≤ 1 ∧
      (first = [] ∨ first = Text.split '/' above) := by
  rw [parent?_of_absolute absolute] at parent
  obtain ⟨start, found, rfl⟩ := Option.map_eq_some_iff.mp parent
  refine ⟨rfl, ?_⟩
  obtain ⟨-, rest, -, whole, short⟩ := @exists_rest_of_starts [] [] _ _ rfl found
  rw [List.nil_append, List.nil_append] at whole
  have split := split_of_absolute absolute
  by_cases top : start = []
  · refine ⟨[], [] :: rest, ?_, ?_, Or.inl rfl⟩
    · rw [split, whole, top, List.nil_append, List.nil_append]
    · rwa [meaning_cons_of_void rfl]
  · refine ⟨[] :: start, rest, ?_, short, Or.inr ?_⟩
    · rw [split, whole, List.cons_append]
    · exact congrArg ([] :: ·) (split_join_of_split top whole).symm

/-- Behind the path above a relative path at most one piece says something. -/
theorem split_of_relative_parent {path above : Path} (relative : isAbsolute path = false)
    (nonempty : path ≠ []) (parent : parent? path = some above) :
    ∃ first rest, Text.split '/' path = first ++ rest ∧ meaning rest ≤ 1 ∧
      (first = [] ∧ above = [] ∨ first = Text.split '/' above ∧ isAbsolute above = false) := by
  rw [parent?_of_relative relative nonempty] at parent
  obtain ⟨start, found, rfl⟩ := Option.map_eq_some_iff.mp parent
  obtain ⟨char, piece, pieces, split⟩ := split_of_relative relative nonempty
  rw [split, List.take_succ_cons, List.take_zero, List.drop_succ_cons, List.drop_zero] at found
  cases later : meaningfulStarts [char :: piece] pieces with
  | nil =>
      obtain rfl : [] = start := by simpa [later] using found
      refine ⟨[], _, rfl, ?_, Or.inl ⟨rfl, rfl⟩⟩
      rw [split]
      exact meaning_le_one_of_cons (meaning_eq_zero_of_starts later)
  | cons next others =>
      have further : ([char :: piece] ::
          meaningfulStarts ([char :: piece] ++ []) pieces).dropLast.getLast? = some start := by
        simp only [List.append_nil, later, List.dropLast_cons_cons, List.getLast?_cons_cons]
          at found ⊢
        exact found
      obtain ⟨more, rest, rfl, whole, short⟩ := exists_rest_of_starts rfl further
      have whole : Text.split '/' path = [char :: piece] ++ more ++ rest := split.trans whole
      have joined := split_join_of_split (List.cons_ne_nil _ _) whole
      exact ⟨_, rest, whole, short, Or.inr ⟨joined.symm, isAbsolute_of_split joined⟩⟩

/-- The pieces of a path right below the starting directory have a meaning at most once. -/
theorem meaning_le_one_of_parent? {path : Path} (nonempty : path ≠ []) (parent : parent? path = some []) :
    meaning (Text.split '/' path) ≤ 1 := by
  cases absolute : isAbsolute path with
  | true => exact absurd (split_of_absolute_parent absolute parent).1 Bool.false_ne_true
  | false =>
      obtain ⟨first, rest, split, short, ⟨rfl, -⟩ | ⟨rfl, -⟩⟩ :=
        split_of_relative_parent absolute nonempty parent
      · rwa [split]
      · rw [split]
        exact Nat.le_trans (Nat.le_of_eq (meaning_cons_of_void rfl rest)) short

end Path

end BranchCatalog
