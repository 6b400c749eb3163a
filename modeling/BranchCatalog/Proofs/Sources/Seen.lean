/-
This file says how rules see the paths of a walk: whatever the spelling of the root, as the names of the route
behind pieces that say nothing, with the shorter starts of the route above them.
-/

import BranchCatalog.Ignore.Rule
import BranchCatalog.Proofs.Sources.Name

namespace BranchCatalog

namespace Path

variable {pieces first second : List Text} {path : Path}

/-- The starts of the first pieces come before those that go on into the second. -/
theorem meaningfulStarts_append (before first second : List Text) :
    meaningfulStarts before (first ++ second) =
      meaningfulStarts before first ++ meaningfulStarts (before ++ first) second := by
  induction first generalizing before with
  | nil => simp [meaningfulStarts]
  | cons piece first inductionHypothesis =>
      simp only [List.cons_append, meaningfulStarts, inductionHypothesis, List.append_assoc, List.nil_append]
      split <;> rfl

/-- The first piece and all longer starts that end with a piece which says something. -/
def startsOf (pieces : List Text) : List (List Text) :=
  pieces.take 1 :: meaningfulStarts (pieces.take 1) (pieces.drop 1)

/-- The starts of longer pieces include those of their start. -/
theorem startsOf_append (nonempty : first ≠ []) (second : List Text) :
    startsOf (first ++ second) = startsOf first ++ meaningfulStarts first second := by
  obtain ⟨piece, first, rfl⟩ := List.exists_cons_of_ne_nil nonempty
  simp [startsOf, meaningfulStarts_append]

/-- Pieces that end with one that says something are their own last start. -/
theorem mem_startsOf_concat {piece : Text} (speaks : isVoid piece = false) (first : List Text) :
    first ++ [piece] ∈ startsOf (first ++ [piece]) := by
  by_cases alone : first = []
  · simp [alone, startsOf]
  · rw [startsOf_append alone]
    exact List.mem_append_right _ (by simp [meaningfulStarts, speaks])

section Relative

variable (nonempty : pieces ≠ []) (apart : ∀ piece ∈ pieces, '/' ∉ piece) (relative : pieces.head? ≠ some [])
include nonempty apart relative

/-- The paths above a joined one are joined from the starts of its pieces. -/
theorem ancestors_join :
    ancestors (Text.join ['/'] pieces) = ([] :: startsOf pieces).dropLast.reverse.map (Text.join ['/']) := by
  have notEmpty : Text.join ['/'] pieces ≠ [] := by
    intro empty
    have cut := Text.split_join nonempty apart
    rw [empty] at cut
    exact relative (cut ▸ rfl)
  simp only [ancestors, isAbsolute_join nonempty apart relative, Text.split_join nonempty apart, startsOf,
    List.isEmpty_eq_false_iff.mpr notEmpty, Bool.false_eq_true, if_false]

end Relative

/-- Each start of the first pieces is above them together with further pieces that say something. -/
theorem join_mem_ancestors {start : List Text} {name : Text} (nonempty : first ≠ [])
    (apart : ∀ piece ∈ first ++ name :: second, '/' ∉ piece) (relative : first.head? ≠ some [])
    (speaks : isVoid name = false) (isStart : start ∈ [] :: startsOf first) :
    Text.join ['/'] start ∈ ancestors (Text.join ['/'] (first ++ name :: second)) := by
  have head : (first ++ name :: second).head? ≠ some [] := by
    rwa [List.head?_append_of_ne_nil _ nonempty]
  rw [ancestors_join (by simp) apart head, startsOf_append nonempty, ← List.cons_append,
    List.dropLast_append_of_ne_nil (by simp [meaningfulStarts, speaks])]
  exact List.mem_map_of_mem (List.mem_reverse.mpr (List.mem_append_left _ isStart))

/-- A path that is nothing but the starting directory is spelled with pieces that say nothing. -/
theorem void_of_sameParts_here (same : sameParts path ['.'] = true) :
    (∀ piece ∈ Text.split '/' path, isVoid piece = true) ∧ (Text.split '/' path).head? = some ['.'] := by
  have parts : parts path = [.here] := beq_iff_eq.mp same
  have notHere (piece : Text) : partOf? piece ≠ some .here := by
    unfold partOf?
    split
    · nofun
    · split <;> nofun
  simp only [Path.parts] at parts
  split at parts
  · simp at parts
  · split at parts
    · next head =>
        have none : (Text.split '/' path).filterMap partOf? = [] := by simpa using parts
        refine ⟨fun piece member => ?_, head⟩
        have silent := List.filterMap_eq_nil_iff.mp none piece member
        by_contra speaks
        rw [partOf?, if_neg speaks] at silent
        split at silent <;> contradiction
    · have parts : (Text.split '/' path).filterMap partOf? = [.here] := by simpa using parts
      have member : Part.here ∈ (Text.split '/' path).filterMap partOf? := parts ▸ List.mem_cons_self
      obtain ⟨piece, -, isHere⟩ := List.mem_filterMap.mp member
      exact absurd isHere (notHere piece)

/-- A slash at the end changes nothing about that. -/
theorem void_of_sameParts_here_concat (same : sameParts (path ++ ['/']) ['.'] = true) :
    (∀ piece ∈ Text.split '/' path, isVoid piece = true) ∧ (Text.split '/' path).head? = some ['.'] := by
  obtain ⟨void, head⟩ := void_of_sameParts_here same
  rw [Text.split_append_cons] at void head
  rw [List.head?_append_of_ne_nil _ (Text.split_ne_nil '/' path)] at head
  exact ⟨fun piece member => void piece (List.mem_append_left _ member), head⟩

end Path

namespace IgnoreList

variable {list : IgnoreList} {path start : Path}

/-- A dot with a slash at the start of a path is not seen, whatever follows. -/
theorem exists_withoutHere (other : start ≠ ['.']) :
    ∃ seen, ∀ rest, (rest = [] ∨ rest.head? = some '/') → withoutHere (start ++ rest) = seen ++ rest := by
  rcases start with _ | ⟨first, _ | ⟨second, start⟩⟩
  · refine ⟨[], fun rest ends => ?_⟩
    rcases rest with _ | ⟨char, rest⟩
    · rfl
    · obtain rfl : char = '/' := by simpa using ends
      rfl
  · have different : first ≠ '.' := fun same => other (same ▸ rfl)
    exact ⟨[first], fun rest _ => by simp [withoutHere, Text.dropStart?, different]⟩
  · by_cases here : first = '.' ∧ second = '/'
    · exact ⟨start, fun rest _ => by simp [withoutHere, Text.dropStart?, here]⟩
    · refine ⟨first :: second :: start, fun rest _ => ?_⟩
      by_cases dot : first = '.'
      · have different : second ≠ '/' := fun same => here ⟨dot, same⟩
        simp [withoutHere, Text.dropStart?, dot, different]
      · simp [withoutHere, Text.dropStart?, dot]

/-- The root is taken off the paths that start with it, unless it is nothing but the starting directory. -/
theorem relative_of_seen {gap rest : Path} (isSeen : withoutHere path = list.root ++ (gap ++ rest))
    (isGap : gap = [] ∨ gap = ['/']) (inside : Path.isAbsolute rest = false) :
    list.relative path = if Path.sameParts list.root ['.'] || !(withoutHere path).contains '/' then withoutHere path
      else rest := by
  have noSlash (more : Path) : rest ≠ '/' :: more := by
    rintro rfl
    contradiction
  unfold relative
  simp only
  split
  · rfl
  · rw [isSeen, Text.dropStart?_append]
    rcases isGap with rfl | rfl
    · split
      · contradiction
      · next more equal => exact absurd (Option.some.inj equal) (noSlash more)
      · next equal => exact (Option.some.inj equal).symm
    · rfl

section Route

variable {root : Path} {route : Route} {lines : List Text}

/-- Below the starting directory itself a filter sees the names alone. -/
theorem relative_of_here (spelled : root = ['.'] ∨ root = ['.', '/'])
    (path : Walk.pathOf root route = '.' :: '/' :: Text.join ['/'] route)
    (inside : Path.isAbsolute (Text.join ['/'] route) = false) :
    (ofLines root lines).relative (Walk.pathOf root route) = Text.join ['/'] route := by
  have isSeen : withoutHere (Walk.pathOf root route) = Text.join ['/'] route := by
    rw [path]
    rfl
  rcases spelled with same | same
  · have dot : (ofLines root lines).root = ['.'] := by
      rw [same]
      rfl
    have isHere : Path.sameParts ['.'] ['.'] = true := rfl
    simp only [relative, isSeen, dot, isHere, Bool.true_or, if_true]
  · have empty : (ofLines root lines).root = [] := by
      rw [same]
      rfl
    have whole : withoutHere (Walk.pathOf root route) =
        (ofLines root lines).root ++ ([] ++ Text.join ['/'] route) := by simp [isSeen, empty]
    rw [relative_of_seen whole (Or.inl rfl) inside, isSeen, ite_self]

/-- Below another root a filter sees the names alone, unless the root is a further spelling of the starting
directory: then it sees them behind the root. -/
theorem relative_of_named {seen : Path} (spelled : withoutHere root = seen ∨ withoutHere root = seen ++ ['/'])
    (whole : withoutHere (Walk.pathOf root route) = seen ++ '/' :: Text.join ['/'] route)
    (inside : Path.isAbsolute (Text.join ['/'] route) = false) :
    (ofLines root lines).relative (Walk.pathOf root route) =
      if Path.sameParts (withoutHere root) ['.'] then seen ++ '/' :: Text.join ['/'] route
      else Text.join ['/'] route := by
  have slash : (seen ++ '/' :: Text.join ['/'] route).contains '/' = true := by simp
  obtain ⟨gap, isGap, behindRoot⟩ : ∃ gap, (gap = [] ∨ gap = ['/']) ∧
      withoutHere (Walk.pathOf root route) = (ofLines root lines).root ++ (gap ++ Text.join ['/'] route) := by
    rcases spelled with same | same
    · exact ⟨['/'], Or.inr rfl, by simp [whole, ofLines, same]⟩
    · exact ⟨[], Or.inl rfl, by simp [whole, ofLines, same]⟩
  rw [relative_of_seen behindRoot isGap inside, whole, slash, Bool.not_true, Bool.or_false]
  rfl

/-- A filter sees a route below its root as the names of the route, behind pieces that say nothing. -/
theorem exists_voids (nonempty : root ≠ []) :
    ∃ voids : List Text, (∀ piece ∈ voids, Path.isVoid piece = true) ∧ voids.head? ≠ some [] ∧
      ∀ (lines : List Text) (route : Route), route ≠ [] → (∀ name ∈ route, IsFileName name) →
        (ofLines root lines).relative (Walk.pathOf root route) = Text.join ['/'] (voids ++ route) := by
  obtain ⟨start, spelled, joined⟩ := Path.exists_joined nonempty
  have path {route : Route} (below : route ≠ []) (names : ∀ name ∈ route, IsFileName name) :
      Walk.pathOf root route = start ++ '/' :: Text.join ['/'] route := by
    rw [Walk.pathOf, if_neg (by simpa using below), joined _ (isAbsolute_join_names below names)]
  by_cases here : start = ['.']
  · subst here
    exact ⟨[], by simp, by simp, fun lines route below names =>
      relative_of_here spelled (path below names) (isAbsolute_join_names below names)⟩
  · obtain ⟨seen, isSeen⟩ := exists_withoutHere here
    have seenRoot : withoutHere root = seen ∨ withoutHere root = seen ++ ['/'] := by
      rcases spelled with same | same
      · exact Or.inl (by simpa [same] using isSeen [] (Or.inl rfl))
      · exact Or.inr (same ▸ isSeen ['/'] (Or.inr rfl))
    have relative (lines : List Text) {route : Route} (below : route ≠ []) (names : ∀ name ∈ route, IsFileName name) :
        (ofLines root lines).relative (Walk.pathOf root route) =
          if Path.sameParts (withoutHere root) ['.'] then seen ++ '/' :: Text.join ['/'] route
          else Text.join ['/'] route := by
      have whole : withoutHere (Walk.pathOf root route) = seen ++ '/' :: Text.join ['/'] route := by
        rw [path below names, isSeen _ (Or.inr rfl)]
      exact relative_of_named seenRoot whole (isAbsolute_join_names below names)
    cases isHere : Path.sameParts (withoutHere root) ['.'] with
    | false =>
        refine ⟨[], by simp, by simp, fun lines route below names => ?_⟩
        rw [relative lines below names, isHere, if_neg Bool.false_ne_true, List.nil_append]
    | true =>
        obtain ⟨void, head⟩ : (∀ piece ∈ Text.split '/' seen, Path.isVoid piece = true) ∧
            (Text.split '/' seen).head? = some ['.'] := by
          rcases seenRoot with same | same
          · exact Path.void_of_sameParts_here (same ▸ isHere)
          · exact Path.void_of_sameParts_here_concat (same ▸ isHere)
        refine ⟨Text.split '/' seen, void, by simp [head], fun lines route below names => ?_⟩
        rw [relative lines below names, isHere, if_pos rfl, Text.join_append (Text.split_ne_nil _ _) below,
          Text.join_split]

end Route

end IgnoreList

section Voids

variable {voids : List Text} {above : Route}

/-- Neither pieces that say nothing nor names hold a slash. -/
theorem apart_of_voids (void : ∀ piece ∈ voids, Path.isVoid piece = true)
    (names : ∀ name ∈ above, IsFileName name) : ∀ piece ∈ voids ++ above, '/' ∉ piece := by
  refine List.forall_mem_append.mpr ⟨fun piece member => ?_, fun name member => (names name member).apart⟩
  rcases Bool.or_eq_true_iff.mp (void piece member) with empty | dot
  · simp [List.isEmpty_iff.mp empty]
  · simp [beq_iff_eq.mp dot]

theorem head?_voids_append (head : voids.head? ≠ some []) (names : ∀ name ∈ above, IsFileName name) :
    (voids ++ above).head? ≠ some [] := by
  rcases voids with _ | ⟨piece, voids⟩
  · rcases above with _ | ⟨name, above⟩
    · nofun
    · exact fun same => (names name List.mem_cons_self).nonempty (Option.some.inj same)
  · exact head

/-- What is above a route as it is seen is also above all longer routes, and so is the route itself. -/
theorem mem_ancestors_of_longer (void : ∀ piece ∈ voids, Path.isVoid piece = true) (head : voids.head? ≠ some [])
    {rest : Route} (names : ∀ name ∈ above ++ rest, IsFileName name) (nonempty : above ≠ []) (longer : rest ≠ [])
    {path : Path} (isAbove : path = Text.join ['/'] (voids ++ above) ∨
      path ∈ Path.ancestors (Text.join ['/'] (voids ++ above))) :
    path ∈ Path.ancestors (Text.join ['/'] (voids ++ (above ++ rest))) := by
  obtain ⟨aboveNames, restNames⟩ := List.forall_mem_append.mp names
  have apart := apart_of_voids void aboveNames
  have startsSpeaking := head?_voids_append head aboveNames
  have some : voids ++ above ≠ [] := by simp [nonempty]
  obtain ⟨start, isStart, rfl⟩ : ∃ start ∈ [] :: Path.startsOf (voids ++ above), Text.join ['/'] start = path := by
    rcases isAbove with rfl | higher
    · obtain ⟨init, last, rfl⟩ := (List.eq_nil_or_concat' above).resolve_left nonempty
      have speaks := (aboveNames last (by simp)).isVoid
      refine ⟨_, List.mem_cons_of_mem _ ?_, rfl⟩
      rw [← List.append_assoc]
      exact Path.mem_startsOf_concat speaks _
    · rw [Path.ancestors_join some apart startsSpeaking, List.mem_map] at higher
      obtain ⟨start, member, same⟩ := higher
      exact ⟨start, List.mem_of_mem_dropLast (List.mem_reverse.mp member), same⟩
  obtain ⟨name, rest, rfl⟩ := List.exists_cons_of_ne_nil longer
  rw [← List.append_assoc]
  refine Path.join_mem_ancestors some ?_ startsSpeaking (restNames name List.mem_cons_self).isVoid isStart
  rw [List.append_assoc]
  exact apart_of_voids void names

end Voids

end BranchCatalog
