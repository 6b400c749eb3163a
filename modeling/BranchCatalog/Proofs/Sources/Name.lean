import BranchCatalog.Proofs.Disk.Parent
import BranchCatalog.Proofs.Sources.Visit
import BranchCatalog.Proofs.Text.Pieces

namespace BranchCatalog

namespace IsFileName

variable {name : Text}

theorem isVoid (is : IsFileName name) : Path.isVoid name = false := by
  simp [Path.isVoid, is.nonempty, is.not_here]

theorem step (is : IsFileName name) (place : Route) : Disk.step place name = place ++ [name] := by
  simp [Disk.step, is.isVoid, is.not_above]

theorem partOf? (is : IsFileName name) : Path.partOf? name = some (.name name) := by
  simp [Path.partOf?, is.isVoid, is.not_above]

end IsFileName

section Join

variable {pieces : List Text} {route : Route}

/-- Pieces without slashes of which the first is not empty make a relative path. -/
theorem isAbsolute_join (nonempty : pieces ≠ []) (apart : ∀ piece ∈ pieces, '/' ∉ piece)
    (relative : pieces.head? ≠ some []) : Path.isAbsolute (Text.join ['/'] pieces) = false := by
  cases absolute : Path.isAbsolute (Text.join ['/'] pieces) with
  | false => rfl
  | true =>
      have cut := Path.split_of_absolute absolute
      rw [Text.split_join nonempty apart] at cut
      exact absurd (cut ▸ rfl) relative

/-- Joined pieces that are not empty do not end with a slash. -/
theorem getLast?_join (nonempty : pieces ≠ []) (apart : ∀ piece ∈ pieces, '/' ∉ piece) (full : [] ∉ pieces) :
    (Text.join ['/'] pieces).getLast? ≠ some '/' := by
  intro last
  obtain ⟨rest, same⟩ := List.getLast?_eq_some_iff.mp last
  have cut := Text.split_append_cons '/' rest []
  rw [← same, Text.split_join nonempty apart] at cut
  exact full (cut ▸ List.mem_append_right _ List.mem_cons_self)

variable (below : route ≠ []) (names : ∀ name ∈ route, IsFileName name)
include below names

theorem split_join_names : Text.split '/' (Text.join ['/'] route) = route :=
  Text.split_join below fun name member => (names name member).apart

theorem isAbsolute_join_names : Path.isAbsolute (Text.join ['/'] route) = false := by
  refine isAbsolute_join below (fun name member => (names name member).apart) fun first => ?_
  exact (names [] (List.mem_of_head? first)).nonempty rfl

end Join

namespace Path

variable {root : Path} {route : Route}

/-- A relative path is written behind the root and its slash. -/
theorem joined_eq_append {path : Path} (relative : isAbsolute path = false) :
    joined root path = joined root [] ++ path := by
  have empty : isAbsolute [] = false := rfl
  simp only [joined, relative, empty, Bool.false_eq_true, if_false]
  split <;> simp

/-- Whether a root ends with a slash or not, one slash stands between it and what is joined to it. -/
theorem exists_joined (nonempty : root ≠ []) :
    ∃ start, (root = start ∨ root = start ++ ['/']) ∧
      ∀ path, isAbsolute path = false → joined root path = start ++ '/' :: path := by
  by_cases ends : root.getLast? = some '/'
  · obtain ⟨start, same⟩ := List.getLast?_eq_some_iff.mp ends
    refine ⟨start, Or.inr same, fun path relative => ?_⟩
    rw [joined, if_neg (by simp [relative]), if_pos (Or.inr ends), same]
    simp
  · refine ⟨root, Or.inl rfl, fun path relative => ?_⟩
    rw [joined, if_neg (by simp [relative]), if_neg (by simp [nonempty, ends])]

theorem isAbsolute_of_append {start rest : Path} (nonempty : start ≠ []) :
    isAbsolute (start ++ rest) = isAbsolute start := by
  obtain ⟨char, start, rfl⟩ := List.exists_cons_of_ne_nil nonempty
  rfl

/-- What is joined to a root is absolute when the root is. -/
theorem isAbsolute_joined {path : Path} (relative : isAbsolute path = false) (nonempty : root ≠ []) :
    isAbsolute (joined root path) = isAbsolute root := by
  obtain ⟨start, rfl | rfl, same⟩ := exists_joined nonempty
  · rw [same path relative, isAbsolute_of_append nonempty]
  · rw [same path relative, ← List.singleton_append, ← List.append_assoc, isAbsolute_of_append nonempty]

/-- The pieces of a joined path are those of the root, less the empty one behind its last slash, and then those
of the path. -/
theorem split_joined {path : Path} (relative : isAbsolute path = false) (nonempty : root ≠ []) :
    ∃ pieces, pieces ≠ [] ∧ Text.split '/' (joined root path) = pieces ++ Text.split '/' path ∧
      (Text.split '/' root = pieces ∨ Text.split '/' root = pieces ++ [[]]) := by
  obtain ⟨start, spelled, same⟩ := exists_joined nonempty
  refine ⟨Text.split '/' start, Text.split_ne_nil '/' start, ?_, ?_⟩
  · rw [same path relative, Text.split_append_cons]
  · rcases spelled with rfl | rfl
    · exact Or.inl rfl
    · exact Or.inr (Text.split_append_cons '/' start [])

section Named

variable (below : route ≠ []) (names : ∀ name ∈ route, IsFileName name) (nonempty : root ≠ [])
include below names nonempty

/-- The parts of a root and names below it are those of the root and the names. -/
theorem parts_joined : parts (joined root (Text.join ['/'] route)) = parts root ++ route.map .name := by
  have relative := isAbsolute_join_names below names
  obtain ⟨pieces, some, cut, spelled⟩ := split_joined relative nonempty
  have head (more : List Text) : (pieces ++ more).head? = pieces.head? := List.head?_append_of_ne_nil _ some
  have void : [[]].filterMap partOf? = [] := rfl
  have named : route.filterMap partOf? = route.map .name := by
    rw [← List.filterMap_eq_map]
    exact List.filterMap_congr fun name member => (names name member).partOf?
  rw [split_join_names below names] at cut
  rcases spelled with whole | whole <;>
    simp only [parts, cut, whole, isAbsolute_joined relative nonempty, head, List.filterMap_append, named, void,
      List.append_nil, List.append_assoc]

/-- What is recorded for a path below a root are the names below the root as they are shown. -/
theorem nameOf_joined :
    Walk.nameOf root (joined root (Text.join ['/'] route)) = Text.join ['/'] (route.map shown) := by
  rw [Walk.nameOf, partsBehind, parts_joined below names nonempty, if_pos (by simp), List.drop_left,
    List.map_map]
  rfl

end Named

end Path

namespace Disk

variable {disk : Disk} {root : Path} {place route : Route}

/-- Names lead down from a directory to what stands there. -/
theorem follow_names (tree : disk.IsTree) (names : ∀ name ∈ route, IsFileName name)
    (stands : disk.entryAt? (place ++ route) ≠ none) : disk.follow place route = .ok (place ++ route) := by
  induction route generalizing place with
  | nil => rw [follow, List.append_nil]
  | cons name route inductionHypothesis =>
      obtain ⟨first, others⟩ := List.forall_mem_cons.mp names
      have directory := tree.directory_above (List.cons_ne_nil name route) stands
      have further : disk.entryAt? (place ++ [name] ++ route) ≠ none := by simpa using stands
      rw [follow, directory]
      simp only [first.step, inductionHypothesis others further, List.append_assoc, List.singleton_append]

/-- A root and names below it lead to where the names lead from the place of the root. -/
theorem locate_joined (tree : disk.IsTree) (below : route ≠ []) (names : ∀ name ∈ route, IsFileName name)
    (located : disk.locate root = .ok place) (stands : disk.entryAt? (place ++ route) ≠ none) :
    disk.locate (Path.joined root (Text.join ['/'] route)) = .ok (place ++ route) := by
  obtain ⟨nonempty, followed⟩ := locate_eq_ok_iff.mp located
  have relative := isAbsolute_join_names below names
  obtain ⟨pieces, -, cut, spelled⟩ := Path.split_joined relative nonempty
  have same := Path.isAbsolute_joined relative nonempty
  have reached : disk.follow (disk.startOf root) pieces = .ok place := by
    rcases spelled with whole | whole
    · rwa [whole] at followed
    · rw [whole, follow_append] at followed
      cases first : disk.follow (disk.startOf root) pieces with
      | error fault =>
          rw [first] at followed
          cases followed
      | ok reached =>
          -- the last slash of the root leads nowhere else
          rw [first] at followed
          have last : disk.follow reached [[]] = .ok place := followed
          rw [eq_goal_of_follow last]
          rfl
  refine locate_eq_ok_iff.mpr ⟨?_, ?_⟩
  · obtain ⟨start, -, written⟩ := Path.exists_joined nonempty
    simp [written _ relative]
  · rw [startOf_eq same, cut, split_join_names below names, follow_append, reached]
    exact follow_names tree names stands

end Disk

end BranchCatalog
