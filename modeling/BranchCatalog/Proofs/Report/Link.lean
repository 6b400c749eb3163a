import BranchCatalog.Proofs.Text.Replace
import BranchCatalog.Report.LinkTemplate

namespace BranchCatalog.LinkTemplate

open Text (occurrences replaceAll)

/-- The file name of a location as links hold it: without one leading dot and slash. -/
def linkedFile (location : Location) : Text :=
  (Text.dropStart? ['.', '/'] location.filename).getD location.filename

/-- The text of a template with all its places filled in at once; nothing that is put in is read again. -/
def fillIn (file number : Text) : Text → Text
  | '\x7b' :: 'f' :: 'i' :: 'l' :: 'e' :: '\x7d' :: rest => file ++ fillIn file number rest
  | '\x7b' :: 'l' :: 'i' :: 'n' :: 'e' :: '\x7d' :: rest => number ++ fillIn file number rest
  | char :: rest => char :: fillIn file number rest
  | [] => []

section Places

variable {file number text : Text}

/-- A template is empty, or it starts with the place of the file name or of the line number, or else with a
character that starts no place. -/
@[elab_as_elim]
theorem place_induction {motive : Text → Prop} (nil : motive [])
    (filed : ∀ rest, motive rest → motive (filePlace ++ rest))
    (lined : ∀ rest, motive rest → motive (linePlace ++ rest))
    (plain : ∀ char rest, filePlace.isPrefixOf (char :: rest) = false →
      linePlace.isPrefixOf (char :: rest) = false →
      (∀ file number, fillIn file number (char :: rest) = char :: fillIn file number rest) →
      motive rest → motive (char :: rest)) (text : Text) : motive text := by
  fun_induction fillIn [] [] text with
  | case1 rest inductionHypothesis => exact filed rest inductionHypothesis
  | case2 rest inductionHypothesis => exact lined rest inductionHypothesis
  | case3 char rest noFile noLine inductionHypothesis =>
      have noPlace {wanted : Text} (apart : ∀ behind, char :: rest ≠ wanted ++ behind) :
          wanted.isPrefixOf (char :: rest) = false := by
        rw [← Bool.not_eq_true, List.isPrefixOf_iff_prefix]
        rintro ⟨behind, split⟩
        exact apart behind split.symm
      have kept (file number : Text) : fillIn file number (char :: rest) = char :: fillIn file number rest := by
        rw [fillIn]
        · exact noFile
        · exact noLine
      apply plain char rest (noPlace ?_) (noPlace ?_) kept inductionHypothesis
      · rintro behind ⟨⟩
        exact noFile behind rfl rfl
      · rintro behind ⟨⟩
        exact noLine behind rfl rfl
  | case4 => exact nil

theorem occurrences_filePlace_append (rest : Text) :
    occurrences linePlace (filePlace ++ rest) = occurrences linePlace rest := by
  simp [occurrences, filePlace, linePlace, List.isPrefixOf]

theorem occurrences_linePlace_append (rest : Text) :
    occurrences linePlace (linePlace ++ rest) = occurrences linePlace rest + 1 := by
  simp [occurrences, linePlace, List.isPrefixOf, Nat.add_comm]

/-- The place of the line number stays when the file name is put in. -/
theorem replaceAll_linePlace_append (rest : Text) :
    replaceAll filePlace file (linePlace ++ rest) = linePlace ++ replaceAll filePlace file rest := by
  apply Text.replaceAll_append
  simp [occurrences, filePlace, linePlace, List.isPrefixOf]

theorem count_linePlace_append (rest : Text) :
    (linePlace ++ rest).count '\x7b' = rest.count '\x7b' + 1 := by
  rw [List.count_append, Nat.add_comm]
  rfl

/-- Each place of the line number takes its opening brace with it when the number is put in. -/
theorem count_replaceAll (absent : '\x7b' ∉ number) (text : Text) :
    (replaceAll linePlace number text).count '\x7b' + occurrences linePlace text = text.count '\x7b' := by
  induction text using Text.replacing_induction (show linePlace ≠ [] by decide) with
  | nil => rfl
  | place rest inductionHypothesis =>
      rw [Text.replaceAll_wanted_append (by decide), occurrences_linePlace_append, count_linePlace_append,
        List.count_append, List.count_eq_zero.mpr absent]
      omega
  | plain char rest elsewhere inductionHypothesis =>
      rw [Text.replaceAll_cons elsewhere, occurrences, elsewhere, List.count_cons, List.count_cons]
      simp only [Bool.false_eq_true, if_false]
      omega

/-- Filling in at once takes away the opening braces of the places that the template itself has. -/
theorem count_fillIn (file : Text) (absent : '\x7b' ∉ number) (text : Text) :
    (fillIn file number text).count '\x7b' + occurrences linePlace text =
      (replaceAll filePlace file text).count '\x7b' := by
  induction text using place_induction with
  | nil => rfl
  | filed rest inductionHypothesis =>
      have filled : fillIn file number (filePlace ++ rest) = file ++ fillIn file number rest := rfl
      rw [filled, occurrences_filePlace_append, Text.replaceAll_wanted_append (by decide), List.count_append,
        List.count_append]
      omega
  | lined rest inductionHypothesis =>
      have filled : fillIn file number (linePlace ++ rest) = number ++ fillIn file number rest := rfl
      rw [filled, occurrences_linePlace_append, replaceAll_linePlace_append, count_linePlace_append,
        List.count_append, List.count_eq_zero.mpr absent]
      omega
  | plain char rest noFile noLine kept inductionHypothesis =>
      rw [kept, occurrences, noLine, Text.replaceAll_cons noFile, List.count_cons, List.count_cons]
      simp only [Bool.false_eq_true, if_false]
      omega

/-- No place of the line number is lost when the file name is put in. -/
theorem occurrences_le_replaceAll (file text : Text) :
    occurrences linePlace text ≤ occurrences linePlace (replaceAll filePlace file text) := by
  induction text using place_induction with
  | nil => exact Nat.le_refl _
  | filed rest inductionHypothesis =>
      rw [occurrences_filePlace_append, Text.replaceAll_wanted_append (by decide)]
      exact inductionHypothesis.trans (Text.occurrences_le_append linePlace file _)
  | lined rest inductionHypothesis =>
      rw [replaceAll_linePlace_append, occurrences_linePlace_append, occurrences_linePlace_append]
      omega
  | plain char rest noFile noLine kept inductionHypothesis =>
      rw [Text.replaceAll_cons noFile, occurrences, occurrences, noLine]
      simp only [Bool.false_eq_true, if_false]
      omega

/-- One after another, the file name and the line number fill a template in as at once when the file name
makes no new place for the line number. -/
theorem replaceAll_eq_fillIn
    (same : occurrences linePlace (replaceAll filePlace file text) = occurrences linePlace text) :
    replaceAll linePlace number (replaceAll filePlace file text) = fillIn file number text := by
  induction text using place_induction with
  | nil => rfl
  | filed rest inductionHypothesis =>
      have least := occurrences_le_replaceAll file rest
      have most := Text.occurrences_le_append linePlace file (replaceAll filePlace file rest)
      rw [Text.replaceAll_wanted_append (by decide), occurrences_filePlace_append] at same
      rw [Text.replaceAll_wanted_append (by decide), Text.replaceAll_append (by omega),
        inductionHypothesis (by omega)]
      rfl
  | lined rest inductionHypothesis =>
      rw [replaceAll_linePlace_append, occurrences_linePlace_append, occurrences_linePlace_append] at same
      rw [replaceAll_linePlace_append, Text.replaceAll_wanted_append (by decide),
        inductionHypothesis (by omega)]
      rfl
  | plain char rest noFile noLine kept inductionHypothesis =>
      have least := occurrences_le_replaceAll file rest
      rw [Text.replaceAll_cons noFile, occurrences, occurrences, noLine] at same
      have elsewhere : linePlace.isPrefixOf (char :: replaceAll filePlace file rest) = false := by
        by_contra here
        rw [Bool.of_not_eq_false here] at same
        simp only [if_true, Bool.false_eq_true, if_false] at same
        omega
      rw [elsewhere] at same
      simp only [Bool.false_eq_true, if_false, Nat.zero_add] at same
      rw [Text.replaceAll_cons noFile, Text.replaceAll_cons elsewhere, inductionHypothesis same, kept]

end Places

/-- A link is its template with all places filled in at once exactly when putting the file name in makes no
place for the line number that the template does not have. -/
theorem render_eq_fillIn_iff (template : LinkTemplate) (location : Location) :
    template.render location = fillIn (linkedFile location) (Text.decimal location.line) template.text ↔
      occurrences linePlace (replaceAll filePlace (linkedFile location) template.text) =
        occurrences linePlace template.text := by
  have absent : '\x7b' ∉ Text.decimal location.line := by
    intro inside
    exact absurd (Nat.isDigit_of_mem_toDigits (by decide) (by decide) inside) (by decide)
  have rendered : template.render location = replaceAll linePlace (Text.decimal location.line)
    (replaceAll filePlace (linkedFile location) template.text) := rfl
  rw [rendered]
  constructor
  · intro same
    have atOnce := count_fillIn (linkedFile location) absent template.text
    have inTurn := count_replaceAll absent (replaceAll filePlace (linkedFile location) template.text)
    rw [same] at inTurn
    omega
  · exact replaceAll_eq_fillIn

/-- A file name that holds the place of the line number itself has it filled in. -/
theorem render_of_place_in_filename :
    let template : LinkTemplate := ⟨"\x7bfile\x7d#L\x7bline\x7d".toList, by decide⟩
    let location : Location := ⟨"a\x7bline\x7d.cc".toList, 7⟩
    template.render location = "a7.cc#L7".toList ∧
      fillIn (linkedFile location) (Text.decimal location.line) template.text =
        "a\x7bline\x7d.cc#L7".toList := by
  decide

/-- A file name without braces can complete a place that the template only begins. -/
example : (⟨"\x7bli\x7bfile\x7de\x7d".toList, by decide⟩ : LinkTemplate).render ⟨['n'], 7⟩ = ['7'] := by
  decide

section Ordinary

variable {file text : Text}

/-- Every opening brace of a template opens one of its places. -/
def opensPlaces : Text → Bool
  | [] => true
  | char :: rest =>
    (char != '\x7b' || filePlace.isPrefixOf (char :: rest) || linePlace.isPrefixOf (char :: rest)) &&
      opensPlaces rest

/-- A start without opening braces adds no place. -/
theorem occurrences_append_of_not_mem {start : Text} (absent : '\x7b' ∉ start) (rest : Text) :
    occurrences linePlace (start ++ rest) = occurrences linePlace rest := by
  induction start with
  | nil => rfl
  | cons char start inductionHypothesis =>
      obtain ⟨different, others⟩ := List.ne_and_not_mem_of_not_mem_cons absent
      rw [List.cons_append, occurrences, inductionHypothesis others]
      simp [linePlace, List.isPrefixOf, different]

/-- A file name without opening braces adds no place for the line. -/
theorem occurrences_replaceAll (absent : '\x7b' ∉ file) (opens : opensPlaces text = true) :
    occurrences linePlace (replaceAll filePlace file text) = occurrences linePlace text := by
  induction text using place_induction with
  | nil => rfl
  | filed rest inductionHypothesis =>
      have further : opensPlaces rest = true := by simpa [opensPlaces, filePlace] using opens
      rw [Text.replaceAll_wanted_append (by decide), occurrences_append_of_not_mem absent,
        occurrences_filePlace_append, inductionHypothesis further]
  | lined rest inductionHypothesis =>
      have further : opensPlaces rest = true := by simpa [opensPlaces, linePlace] using opens
      rw [replaceAll_linePlace_append, occurrences_linePlace_append, occurrences_linePlace_append,
        inductionHypothesis further]
  | plain char rest noFile noLine kept inductionHypothesis =>
      simp only [opensPlaces, noFile, noLine, Bool.or_false, Bool.and_eq_true, bne_iff_ne] at opens
      obtain ⟨different, further⟩ := opens
      have absent : '\x7b' ∉ [char] := by simpa using different.symm
      have noStart (rest : Text) : occurrences linePlace (char :: rest) = occurrences linePlace rest :=
        occurrences_append_of_not_mem absent rest
      rw [Text.replaceAll_cons noFile, noStart, noStart, inductionHypothesis further]

/-- The links of the default template are filled in at once for every file name without opening braces. -/
theorem render_default {location : Location} (absent : '\x7b' ∉ location.filename) :
    default.render location =
      fillIn (linkedFile location) (Text.decimal location.line) default.text := by
  have linked : '\x7b' ∉ linkedFile location := by
    rw [linkedFile]
    cases dropped : Text.dropStart? ['.', '/'] location.filename with
    | none => exact absent
    | some rest =>
        rw [Text.eq_append_of_dropStart? dropped] at absent
        exact fun inside => absent (List.mem_append_right _ inside)
  exact replaceAll_eq_fillIn (occurrences_replaceAll linked (by decide +kernel))

end Ordinary

end BranchCatalog.LinkTemplate
