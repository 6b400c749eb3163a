import BranchCatalog.Proofs.Sources.Name
import Mathlib.Data.List.Forall2
import Mathlib.Data.List.Nodup

namespace BranchCatalog

open Disk (ComesBefore)

variable {disk : Disk} {prepared : Walk} {root : Path} {place route above : Route}
variable {excludes : List Text} {accepts : Path → Bool}

/-- What a walk is to collect below a root: no directory, neither itself nor a directory on the way to it is
passed over, the exclude filter does not leave it out, and it is accepted. -/
structure IsWanted (disk : Disk) (root : Path) (place : Route) (excludes : List Text) (accepts : Path → Bool)
    (route : Route) : Prop where
  isEntry : ∃ entry, disk.entryAt? (place ++ route) = some entry ∧ entry ≠ .directory
  reached : ∀ part, part ≠ [] → part <+: route → ¬ IsPassedOver disk root place part (part ≠ route)
  kept : (excludeFilter root excludes).excludes (Walk.pathOf root route) false = false
  accepted : accepts (Walk.pathOf root route) = true

/-- The bytes of all names of a route are those of texts. -/
def Route.IsUtf8 (route : Route) : Prop :=
  ∀ name ∈ route, Path.IsUtf8 name

/-- The name that is recorded for a route below a root. -/
def recordedName (route : Route) : Text :=
  Text.join ['/'] (route.map Path.shown)

/-- A source is what stands at a route from a root: it is recorded under the names of the route, and its path is
the root with these names behind it. Names that are texts are recorded as they are. -/
structure Source.IsAt (source : Source) (disk : Disk) (root : Path) (place route : Route) : Prop where
  filename : source.filename = recordedName route
  pieces : Text.split '/' source.filename = route.map Path.shown
  no_here : ['.'] ∉ Text.split '/' source.filename
  no_slash_before : source.filename.head? ≠ some '/'
  no_slash_behind : source.filename.getLast? ≠ some '/'
  path : source.path = Path.joined root (Text.join ['/'] route)
  located : disk.locate source.path = .ok (place ++ route)
  reads : ∀ content, disk.entryAt? (place ++ route) = some (.file content) → disk.read source.path = .ok content
  designated : route.IsUtf8 →
    Path.bytes source.path = Path.bytes (Path.joined root []) ++ Text.encodeUtf8 source.filename

namespace Walk

/-- The source at a route from a root. -/
def sourceAt (root : Path) (route : Route) : Source :=
  ⟨pathOf root route, nameOf root (pathOf root route)⟩

/-- The routes of the sources that a walk collects. -/
def collected (disk : Disk) (root : Path) (place : Route) (excludes : List Text) (accepts : Path → Bool) :
    List Route :=
  (disk.listing place).filterMap fun (route, entry) =>
    if entry ≠ .directory ∧ (start disk root place).reaches route ∧
        (excludeFilter root excludes).excludes (pathOf root route) false = false ∧
        accepts (pathOf root route) then
      some route
    else none

/-- A walk reaches what it does not pass over, neither itself nor on the way. -/
theorem reaches_eq_true_iff (below : route ≠ []) :
    prepared.reaches route = true ↔
      ∀ part, part ≠ [] → part <+: route → prepared.passesOver part (part ≠ route) = false := by
  simp only [reaches, Bool.and_eq_true, Bool.not_eq_true', List.all_eq_true, mem_properStarts_iff,
    Bool.or_eq_true, List.isEmpty_iff]
  constructor
  · rintro ⟨itself, onTheWay⟩ part nonempty inside
    by_cases whole : part = route
    · simpa [whole] using itself
    · simpa [whole] using (onTheWay part ⟨inside, whole⟩).resolve_left nonempty
  · intro reached
    refine ⟨by simpa using reached route below (List.prefix_refl _), fun part ⟨inside, different⟩ => ?_⟩
    by_cases empty : part = []
    · exact Or.inl empty
    · exact Or.inr (by simpa [different] using reached part empty inside)

/-- What stands on a disk is reached when nothing on the way to it is passed over. -/
theorem reaches_start_iff (tree : disk.IsTree) (below : route ≠ []) (stands : disk.entryAt? (place ++ route) ≠ none) :
    (start disk root place).reaches route = true ↔
      ∀ part, part ≠ [] → part <+: route → ¬ IsPassedOver disk root place part (part ≠ route) := by
  rw [reaches_eq_true_iff below]
  refine forall_congr' fun part => forall_congr' fun nonempty => forall_congr' fun inside => ?_
  have onTheWay : disk.entryAt? (place ++ part) ≠ none := by
    by_cases whole : part = route
    · rwa [whole]
    · simp [tree.directory_of_prefix inside whole stands]
  rw [← passesOver_iff tree onTheWay, Bool.not_eq_true]

theorem pairwise_collected (named : disk.HasFileNames) (root : Path) (place : Route) (excludes : List Text)
    (accepts : Path → Bool) : (collected disk root place excludes accepts).Pairwise ComesBefore := by
  refine List.pairwise_filterMap.mpr ((Disk.pairwise_listing named place).imp ?_)
  intro left right before route isLeft other isRight
  obtain ⟨-, same⟩ := Option.ite_none_right_eq_some.mp isLeft
  obtain ⟨-, alsoSame⟩ := Option.ite_none_right_eq_some.mp isRight
  rwa [Option.some.inj same, Option.some.inj alsoSame] at before

end Walk

section Recorded

variable (names : ∀ name ∈ route, IsFileName name)
include names

theorem shown_apart : ∀ piece ∈ route.map Path.shown, '/' ∉ piece :=
  List.forall_mem_map.mpr fun name member => (names name member).shown_apart

theorem shown_full : [] ∉ route.map Path.shown := by
  intro member
  obtain ⟨name, isName, empty⟩ := List.mem_map.mp member
  exact Path.shown_ne_nil (names name isName).nonempty empty

/-- A recorded name is cut into the names that are shown. -/
theorem split_recordedName (below : route ≠ []) : Text.split '/' (recordedName route) = route.map Path.shown :=
  Text.split_join (by simpa using below) (shown_apart names)

omit names in
/-- When the names of a route are texts, so is their path. -/
theorem bytes_join (is : route.IsUtf8) :
    Path.bytes (Text.join ['/'] route) = Text.encodeUtf8 (recordedName route) := by
  induction route with
  | nil => rfl
  | cons name route inductionHypothesis =>
      obtain ⟨first, others⟩ := List.forall_mem_cons.mp is
      by_cases last : route = []
      · subst last
        simp [recordedName, Text.join, Path.encodeUtf8_shown first]
      · have slash : Path.bytes ['/'] = Text.encodeUtf8 ['/'] := rfl
        rw [recordedName, List.map_cons, Text.join_cons_of_ne_nil last, Text.join_cons_of_ne_nil (by simpa using last),
          ← recordedName, Path.bytes_append, Path.bytes_append, inductionHypothesis others, slash,
          ← Path.encodeUtf8_shown first]
        simp only [Text.encodeUtf8, List.flatMap_append]

/-- Routes of texts are told apart by the names that are recorded for them. -/
theorem eq_of_recordedName {other : Route} (alsoNames : ∀ name ∈ other, IsFileName name) (below : route ≠ [])
    (alsoBelow : other ≠ []) (is : route.IsUtf8) (alsoIs : other.IsUtf8)
    (same : recordedName route = recordedName other) : route = other := by
  have cut := congrArg (Text.split '/') same
  rw [split_recordedName names below, split_recordedName alsoNames alsoBelow] at cut
  have written {route : Route} (is : route.IsUtf8) :
      (route.map Path.shown).map Text.encodeUtf8 = route.map Path.bytes := by
    rw [List.map_map]
    exact List.map_congr_left fun name member => Path.encodeUtf8_shown (is name member)
  refine Disk.eq_of_map_bytes names alsoNames ?_
  rw [← written is, cut, written alsoIs]

end Recorded

section Wanted

theorem IsWanted.stands (wanted : IsWanted disk root place excludes accepts route) :
    disk.entryAt? (place ++ route) ≠ none := by
  obtain ⟨entry, stands, -⟩ := wanted.isEntry
  exact stands ▸ Option.some_ne_none entry

theorem IsWanted.names (named : disk.HasFileNames) (wanted : IsWanted disk root place excludes accepts route) :
    ∀ name ∈ route, IsFileName name :=
  fun name member => named _ wanted.stands name (List.mem_append_right _ member)

/-- On the way to what is wanted nothing is passed over. -/
theorem IsWanted.leadsOn (tree : disk.IsTree) (wanted : IsWanted disk root place excludes accepts route) :
    LeadsOn disk root place [] route := by
  intro part nonempty inside
  have reached := wanted.reached part nonempty inside
  by_cases whole : part = route
  · subst whole
    obtain ⟨entry, stands, noDirectory⟩ := wanted.isEntry
    exact ⟨entry, stands, by simpa [noDirectory] using reached⟩
  · have directory := tree.directory_of_prefix inside whole wanted.stands
    exact ⟨.directory, directory, by simpa [whole] using reached⟩

variable (directory : disk.entryAt? place = some .directory)
include directory

theorem IsWanted.below (wanted : IsWanted disk root place excludes accepts route) : route ≠ [] := by
  rintro rfl
  obtain ⟨entry, stands, noDirectory⟩ := wanted.isEntry
  rw [List.append_nil, directory] at stands
  exact noDirectory (Option.some.inj stands).symm

/-- Collected is exactly what is wanted. -/
theorem mem_collected_iff (tree : disk.IsTree) :
    route ∈ Walk.collected disk root place excludes accepts ↔ IsWanted disk root place excludes accepts route := by
  rw [Walk.collected, List.mem_filterMap]
  constructor
  · rintro ⟨⟨other, entry⟩, listed, taken⟩
    obtain ⟨⟨noDirectory, reached, kept, accepted⟩, same⟩ := Option.ite_none_right_eq_some.mp taken
    obtain rfl : other = route := Option.some.inj same
    obtain ⟨nonempty, stands⟩ := Disk.mem_listing_iff.mp listed
    exact ⟨⟨entry, stands, noDirectory⟩, (Walk.reaches_start_iff tree nonempty (by simp [stands])).mp reached, kept,
      accepted⟩
  · intro wanted
    have nonempty := wanted.below directory
    have reached := (Walk.reaches_start_iff tree nonempty wanted.stands).mpr wanted.reached
    obtain ⟨entry, stands, noDirectory⟩ := wanted.isEntry
    exact ⟨(route, entry), Disk.mem_listing_iff.mpr ⟨nonempty, stands⟩,
      if_pos ⟨noDirectory, reached, wanted.kept, wanted.accepted⟩⟩

/-- What a walk collects it also visits. -/
theorem collected_sublist {visited : List Route} (tree : disk.IsTree) (named : disk.HasFileNames)
    (visits : Visits disk root place [] visited) :
    (Walk.collected disk root place excludes accepts).Sublist visited := by
  refine Disk.sublist_of_pairwise_comesBefore (Walk.pairwise_collected named root place excludes accepts)
    (visits.pairwise tree) fun route member => ?_
  exact (visits.mem_iff tree).mpr ⟨route, rfl, ((mem_collected_iff directory tree).mp member).leadsOn tree⟩

/-- What is wanted is the source at its route. -/
theorem IsWanted.isAt (tree : disk.IsTree) (named : disk.HasFileNames) (located : disk.locate root = .ok place)
    (wanted : IsWanted disk root place excludes accepts route) :
    (Walk.sourceAt root route).IsAt disk root place route := by
  have below := wanted.below directory
  have names := wanted.names named
  have nonempty : route.map Path.shown ≠ [] := by simpa using below
  have path : (Walk.sourceAt root route).path = Path.joined root (Text.join ['/'] route) := by
    simp [Walk.sourceAt, Walk.pathOf, below]
  have filename : (Walk.sourceAt root route).filename = recordedName route := by
    rw [recordedName, ← Path.nameOf_joined below names (Disk.locate_eq_ok_iff.mp located).1, ← path]
    rfl
  have reached : disk.locate (Walk.sourceAt root route).path = .ok (place ++ route) := by
    rw [path]
    exact Disk.locate_joined tree below names located wanted.stands
  refine ⟨filename, ?_, ?_, ?_, ?_, path, reached, ?_, ?_⟩
  · rw [filename, split_recordedName names below]
  · rw [filename, split_recordedName names below]
    intro member
    obtain ⟨name, isName, here⟩ := List.mem_map.mp member
    exact (names name isName).shown_ne_here here
  · have relative := isAbsolute_join nonempty (shown_apart names) fun first =>
      shown_full names (List.mem_of_head? first)
    rw [filename]
    simpa [recordedName, Path.isAbsolute] using relative
  · rw [filename]
    exact getLast?_join nonempty (shown_apart names) (shown_full names)
  · intro content isFile
    rw [Disk.read, Disk.lookUp_eq_ok_iff.mpr ⟨_, reached, isFile⟩]
    rfl
  · intro is
    rw [path, Path.joined_eq_append (isAbsolute_join_names below names), Path.bytes_append, bytes_join is, filename]

end Wanted

/-- A walk from a directory collects its sources, unless the root is a dash. -/
theorem walk_eq_collected (located : disk.locate root = .ok place)
    (directory : disk.entryAt? place = some .directory) (noDash : Path.sameParts root ['-'] = false) :
    walk disk root excludes accepts =
      .ok ((Walk.collected disk root place excludes accepts).map (Walk.sourceAt root)) := by
  have found : disk.lookUp root = .ok .directory := Disk.lookUp_eq_ok_iff.mpr ⟨place, located, directory⟩
  have noFile : disk.isFile root = false := by rw [Disk.isFile, found]
  rw [walk, noFile, noDash, located, found, Walk.collected, List.map_filterMap]
  refine congrArg Except.ok (List.filterMap_congr fun entry _ => ?_)
  obtain ⟨route, entry⟩ := entry
  simp only [apply_ite (Option.map (Walk.sourceAt root)), ite_and]
  rfl

/-- From a directory that is spelled as a dash a walk takes in standard input. -/
theorem walk_of_dash (located : disk.locate root = .ok place) (directory : disk.entryAt? place = some .directory)
    (dash : Path.sameParts root ['-'] = true) :
    walk disk root excludes accepts =
      .ok (if (excludeFilter root excludes).excludes standardInput false = false ∧ accepts standardInput = true then
        [⟨standardInput, standardInput⟩] else []) := by
  have found : disk.lookUp root = .ok .directory := Disk.lookUp_eq_ok_iff.mpr ⟨place, located, directory⟩
  have noFile : disk.isFile root = false := by rw [Disk.isFile, found]
  have parts : Path.parts root = Path.parts ['-'] := beq_iff_eq.mp dash
  have name : Walk.nameOf root standardInput = standardInput := by
    rw [Walk.nameOf, Path.partsBehind, parts]
    decide +kernel
  simp only [walk, noFile, dash, name, Bool.false_eq_true, if_false, if_true]
  split <;> rfl

/-- Sources are collected in order: they are exactly what is wanted below the root, in the order of the bytes of
its names, which is that of the depth-first visit. So each is there once and under a path of its own, those of
each directory stand next to each other, and names that are texts are recorded for one source only. -/
structure IsCollection (disk : Disk) (root : Path) (place : Route) (excludes : List Text)
    (accepts : Path → Bool) (sources : List Source) (routes : List Route) : Prop where
  sourcesAt : List.Forall₂ (fun source route => source.IsAt disk root place route) sources routes
  paths : (sources.map Source.path).Nodup
  distinct : routes.Pairwise fun left right => left.IsUtf8 → right.IsUtf8 → recordedName left ≠ recordedName right
  wanted : ∀ route, route ∈ routes ↔ IsWanted disk root place excludes accepts route
  ordered : routes.Pairwise ComesBefore
  together : ∀ above : Route, routes.filter (above.isPrefixOf ·) <:+: routes
  visited : ∃ visited, (∀ others, Visits disk root place [] others ↔ others = visited) ∧ routes.Sublist visited

/-- What a walk collects is a collection. -/
theorem isCollection_collected (tree : disk.IsTree) (named : disk.HasFileNames) (located : disk.locate root = .ok place)
    (directory : disk.entryAt? place = some .directory) (excludes : List Text) (accepts : Path → Bool) :
    IsCollection disk root place excludes accepts
      ((Walk.collected disk root place excludes accepts).map (Walk.sourceAt root))
      (Walk.collected disk root place excludes accepts) := by
  obtain ⟨visited, visits⟩ : ∃ visited, Visits disk root place [] visited :=
    exists_visits tree named (by simp [directory])
  have ordered := Walk.pairwise_collected named root place excludes accepts
  have wanted {route : Route} (member : route ∈ Walk.collected disk root place excludes accepts) :=
    (mem_collected_iff directory tree).mp member
  refine ⟨?_, ?_, ?_, fun route => mem_collected_iff directory tree, ordered, ?_, visited, ?_,
    collected_sublist directory tree named visits⟩
  · exact List.forall₂_map_left_iff.mpr (List.forall₂_same.mpr fun route member =>
      (wanted member).isAt directory tree named located)
  · rw [List.map_map]
    refine List.pairwise_map.mpr (ordered.imp_of_mem fun {left right} member alsoMember before same => ?_)
    have reached := ((wanted member).isAt directory tree named located).located
    have alsoReached := ((wanted alsoMember).isAt directory tree named located).located
    have places := reached.symm.trans ((congrArg disk.locate same).trans alsoReached)
    obtain rfl : left = right := List.append_cancel_left (Except.ok.inj places)
    exact Disk.comesBefore_irrefl left before
  · refine ordered.imp_of_mem fun {left right} member alsoMember before is alsoIs same => ?_
    obtain rfl : left = right := eq_of_recordedName ((wanted member).names named) ((wanted alsoMember).names named)
      ((wanted member).below directory) ((wanted alsoMember).below directory) is alsoIs same
    exact Disk.comesBefore_irrefl left before
  · exact Disk.filter_infix_of_pairwise (fun route member => (wanted member).names named) ordered
  · exact fun others => ⟨visits.unique tree, fun same => same ▸ visits⟩

end BranchCatalog
