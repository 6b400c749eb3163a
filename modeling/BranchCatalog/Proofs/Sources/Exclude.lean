import BranchCatalog.Proofs.Ignore.Rule
import BranchCatalog.Proofs.Sources.Seen
import BranchCatalog.Proofs.Sources.Walk

namespace BranchCatalog

def builtInDirectories : List Text :=
  ["target".toList, "build".toList, "out".toList, ".git".toList, ".svn".toList]

def builtInEndings : List Text :=
  [".root".toList, ".db".toList, ".o".toList, ".so".toList, ".a".toList, ".pyc".toList]

/-- A file at a route is among the built ones and the data of version control: it stands in a directory of such
a name, or its own name or that of a directory on the way ends so. -/
def IsBuiltInExcluded (route : Route) : Prop :=
  (∃ name ∈ route.dropLast, name ∈ builtInDirectories) ∨ ∃ name ∈ route, ∃ ending ∈ builtInEndings, ending <:+ name

/-- Holds when the globs of all patterns that can be read compile. -/
def patternsCompile (patterns : List Text) : Bool :=
  (patterns.filterMap IgnoreRule.ofLine?).all fun rule => rule.glob.compiles

/-- No pattern makes a rule that keeps. -/
def NoneKeeps (patterns : List Text) : Prop :=
  ∀ pattern ∈ patterns, pattern.head? ≠ some '!'

instance (patterns : List Text) : Decidable (NoneKeeps patterns) :=
  inferInstanceAs (Decidable (∀ pattern ∈ patterns, _))

section Filter

variable {patterns others : List Text} {root : Path} {path : Path} {isDirectory : Bool}

/-- The built-in excludes are the patterns of these directories and endings. -/
theorem builtInExcludes_eq :
    builtInExcludes = builtInDirectories.map (· ++ ['/']) ++ builtInEndings.map ('*' :: ·) :=
  rfl

theorem isPlain_of_mem_builtIn {name : Text} (member : name ∈ builtInDirectories ++ builtInEndings) :
    name ≠ [] ∧ ∀ char ∈ name, Glob.IsPlain char := by
  have all : (builtInDirectories ++ builtInEndings).all (fun name =>
      !name.isEmpty && name.all fun char => decide (Glob.IsPlain char)) = true := by decide
  simpa using List.all_eq_true.mp all name member

theorem isText_of_mem_builtIn {name : Text} (member : name ∈ builtInDirectories ++ builtInEndings) :
    Path.IsText name := by
  have all : (builtInDirectories ++ builtInEndings).all (fun name => decide (Path.IsText name)) = true := by decide
  simpa using List.all_eq_true.mp all name member

/-- The pattern of such a directory makes a rule for directories of its name. -/
theorem ofLine?_directory_of_mem {name : Text} (member : name ∈ builtInDirectories) :
    IgnoreRule.ofLine? (name ++ ['/']) =
      some ⟨Glob.inSequence (.leadingDirectories :: Glob.spelled name), false, true⟩ := by
  obtain ⟨nonempty, plain⟩ := isPlain_of_mem_builtIn (List.mem_append_left _ member)
  exact IgnoreRule.ofLine?_directory nonempty plain

/-- The pattern of such an ending makes a rule for names that end so. -/
theorem ofLine?_ending_of_mem {ending : Text} (member : ending ∈ builtInEndings) :
    IgnoreRule.ofLine? ('*' :: ending) =
      some ⟨Glob.inSequence (.leadingDirectories :: .anyName :: Glob.spelled ending), false, false⟩ := by
  obtain ⟨nonempty, plain⟩ := isPlain_of_mem_builtIn (List.mem_append_right _ member)
  exact IgnoreRule.ofLine?_ending nonempty plain

theorem noneKeeps_append : NoneKeeps (patterns ++ others) ↔ NoneKeeps patterns ∧ NoneKeeps others :=
  List.forall_mem_append

theorem noneKeeps_builtInExcludes : NoneKeeps builtInExcludes := by
  have all : builtInExcludes.all (fun pattern => decide (pattern.head? ≠ some '!')) = true := by decide
  exact fun pattern member => by simpa using List.all_eq_true.mp all pattern member

/-- Patterns compile together when each of them does. -/
theorem patternsCompile_append (patterns others : List Text) :
    patternsCompile (patterns ++ others) = (patternsCompile patterns && patternsCompile others) := by
  rw [patternsCompile, List.filterMap_append, List.all_append]
  rfl

theorem patternsCompile_builtInExcludes : patternsCompile builtInExcludes = true := by
  refine List.all_eq_true.mpr fun rule member => ?_
  obtain ⟨pattern, listed, found⟩ := List.mem_filterMap.mp member
  rw [builtInExcludes_eq, List.mem_append] at listed
  rcases listed with listed | listed
  · obtain ⟨name, isName, rfl⟩ := List.mem_map.mp listed
    rw [ofLine?_directory_of_mem isName] at found
    exact Option.some.inj found ▸ Glob.compiles_of_named name
  · obtain ⟨ending, isEnding, rfl⟩ := List.mem_map.mp listed
    rw [ofLine?_ending_of_mem isEnding] at found
    exact Option.some.inj found ▸ Glob.compiles_of_ending ending

/-- A filter has the rules of all its patterns, or none when one of them does not compile. -/
theorem rules_excludeFilter (root : Path) (patterns : List Text) :
    (excludeFilter root patterns).rules =
      if patternsCompile patterns then (builtInExcludes ++ patterns).filterMap IgnoreRule.ofLine? else [] := by
  have whole : patternsCompile (builtInExcludes ++ patterns) = patternsCompile patterns := by
    rw [patternsCompile_append, patternsCompile_builtInExcludes, Bool.true_and]
  rw [← whole]
  rfl

/-- A rule of a filter comes from one of its patterns. -/
theorem mem_rules_excludeFilter_iff {rule : IgnoreRule} :
    rule ∈ (excludeFilter root patterns).rules ↔ patternsCompile patterns = true ∧
      ∃ pattern ∈ builtInExcludes ++ patterns, IgnoreRule.ofLine? pattern = some rule := by
  rw [rules_excludeFilter]
  split
  · next compile => rw [List.mem_filterMap, and_iff_right compile]
  · next failed => exact iff_of_false List.not_mem_nil fun both => failed both.1

/-- A filter of patterns of which none keeps anything excludes a path when one of its rules is about the path or
about a directory above it. -/
theorem excludes_eq_true_iff (noneKeeps : NoneKeeps patterns) :
    (excludeFilter root patterns).excludes path isDirectory = true ↔
      ∃ rule ∈ (excludeFilter root patterns).rules,
        rule.concerns (Path.bytes ((excludeFilter root patterns).relative path)) isDirectory = true ∨
          ∃ above ∈ Path.ancestors ((excludeFilter root patterns).relative path),
            rule.concerns (Path.bytes above) true = true := by
  rw [IgnoreList.excludes, decide_eq_true_eq]
  refine IgnoreList.verdictUpwards_eq_ignored_iff fun rule member => ?_
  obtain ⟨-, pattern, listed, found⟩ := mem_rules_excludeFilter_iff.mp member
  have noMark := noneKeeps_append.mpr ⟨noneKeeps_builtInExcludes, noneKeeps⟩ pattern listed
  exact IgnoreRule.keeps_of_ofLine? found noMark

/-- Nothing is excluded when a glob does not compile. -/
theorem excludes_of_not_compile (failed : patternsCompile patterns = false) :
    (excludeFilter root patterns).excludes path isDirectory = false := by
  have none : (excludeFilter root patterns).rules = [] := by rw [rules_excludeFilter, failed, if_neg nofun]
  rw [IgnoreList.excludes, decide_eq_false_iff_not, IgnoreList.verdictUpwards_eq_ignored_iff (by simp [none])]
  simp [none]

/-- What some patterns exclude, more patterns exclude as well, in whatever order they stand. -/
theorem excludes_mono (noneKeeps : NoneKeeps patterns) (alsoNoneKeeps : NoneKeeps others)
    (inside : patterns ⊆ others) (compile : patternsCompile patterns = true → patternsCompile others = true)
    (excluded : (excludeFilter root patterns).excludes path isDirectory = true) :
    (excludeFilter root others).excludes path isDirectory = true := by
  obtain ⟨rule, member, concerned⟩ := (excludes_eq_true_iff noneKeeps).mp excluded
  obtain ⟨compiles, pattern, listed, found⟩ := mem_rules_excludeFilter_iff.mp member
  have further : pattern ∈ builtInExcludes ++ others := by
    rcases List.mem_append.mp listed with builtIn | given
    · exact List.mem_append_left _ builtIn
    · exact List.mem_append_right _ (inside given)
  refine (excludes_eq_true_iff alsoNoneKeeps).mpr ⟨rule, ?_, concerned⟩
  exact mem_rules_excludeFilter_iff.mpr ⟨compile compiles, pattern, further, found⟩

end Filter

section Route

variable {patterns : List Text} {root : Path} {above rest route : Route} {isDirectory : Bool}
variable (nonempty : root ≠ []) (noneKeeps : NoneKeeps patterns)
include nonempty noneKeeps

/-- What is below an excluded directory is excluded. -/
theorem excludes_of_above (names : ∀ name ∈ above ++ rest, IsFileName name) (below : above ≠ []) (longer : rest ≠ [])
    (excluded : (excludeFilter root patterns).excludes (Walk.pathOf root above) true = true) :
    (excludeFilter root patterns).excludes (Walk.pathOf root (above ++ rest)) isDirectory = true := by
  obtain ⟨voids, void, head, seen⟩ := IgnoreList.exists_voids nonempty
  obtain ⟨aboveNames, -⟩ := List.forall_mem_append.mp names
  obtain ⟨rule, member, concerned⟩ := (excludes_eq_true_iff noneKeeps).mp excluded
  rw [excludeFilter, seen _ above below aboveNames] at concerned
  refine (excludes_eq_true_iff noneKeeps).mpr ⟨rule, member, Or.inr ?_⟩
  rw [excludeFilter, seen _ (above ++ rest) (by simp [below]) names]
  rcases concerned with itself | ⟨higher, isHigher, concerned⟩
  · exact ⟨_, mem_ancestors_of_longer void head names below longer (Or.inl rfl), itself⟩
  · exact ⟨higher, mem_ancestors_of_longer void head names below longer (Or.inr isHigher), concerned⟩

variable (compile : patternsCompile patterns = true)
include compile

/-- A directory of a built-in name is excluded. -/
theorem excludes_of_directory {before : Route} {name : Text}
    (names : ∀ other ∈ before ++ [name], IsFileName other) (member : name ∈ builtInDirectories) :
    (excludeFilter root patterns).excludes (Walk.pathOf root (before ++ [name])) true = true := by
  obtain ⟨voids, void, head, seen⟩ := IgnoreList.exists_voids nonempty
  have listed : name ++ ['/'] ∈ builtInExcludes ++ patterns := by
    rw [builtInExcludes_eq]
    exact List.mem_append_left _ (List.mem_append_left _ (List.mem_map_of_mem member))
  refine (excludes_eq_true_iff noneKeeps).mpr ⟨_, mem_rules_excludeFilter_iff.mpr
    ⟨compile, _, listed, ofLine?_directory_of_mem member⟩, Or.inl ?_⟩
  rw [excludeFilter, seen _ _ (by simp) names, ← List.append_assoc]
  exact IgnoreRule.concerns_directory (isText_of_mem_builtIn (List.mem_append_left _ member)) (voids ++ before)

/-- What ends in a built-in way is excluded. -/
theorem excludes_of_ending {before : Route} {stem ending : Text}
    (names : ∀ name ∈ before ++ [stem ++ ending], IsFileName name) (member : ending ∈ builtInEndings) :
    (excludeFilter root patterns).excludes (Walk.pathOf root (before ++ [stem ++ ending])) isDirectory = true := by
  obtain ⟨voids, void, head, seen⟩ := IgnoreList.exists_voids nonempty
  have listed : '*' :: ending ∈ builtInExcludes ++ patterns := by
    rw [builtInExcludes_eq]
    exact List.mem_append_left _ (List.mem_append_right _ (List.mem_map_of_mem member))
  have apart : '/' ∉ stem := fun inside => by
    exact (names (stem ++ ending) (by simp)).apart (List.mem_append_left _ inside)
  refine (excludes_eq_true_iff noneKeeps).mpr ⟨_, mem_rules_excludeFilter_iff.mpr
    ⟨compile, _, listed, ofLine?_ending_of_mem member⟩, Or.inl ?_⟩
  rw [excludeFilter, seen _ _ (by simp) names, ← List.append_assoc]
  exact IgnoreRule.concerns_ending apart (isText_of_mem_builtIn (List.mem_append_right _ member)) (voids ++ before)
    isDirectory

/-- What is built in is excluded, whatever further patterns say. -/
theorem excludes_of_builtIn (names : ∀ name ∈ route, IsFileName name) (builtIn : IsBuiltInExcluded route) :
    (excludeFilter root patterns).excludes (Walk.pathOf root route) false = true := by
  rcases builtIn with ⟨name, member, isName⟩ | ⟨name, member, ending, isEnding, stem, rfl⟩
  · obtain ⟨before, middle, same⟩ := List.append_of_mem member
    obtain ⟨last, rfl⟩ : ∃ last, route = (before ++ [name]) ++ (middle ++ [last]) := by
      have some : route ≠ [] := by
        rintro rfl
        contradiction
      have whole := List.dropLast_concat_getLast some
      rw [same] at whole
      exact ⟨route.getLast some, by simpa using whole.symm⟩
    have directory := excludes_of_directory nonempty noneKeeps compile (List.forall_mem_append.mp names).1 isName
    exact excludes_of_above nonempty noneKeeps names (by simp) (by simp) directory
  · obtain ⟨before, rest, rfl⟩ := List.append_of_mem member
    have whole : before ++ (stem ++ ending) :: rest = (before ++ [stem ++ ending]) ++ rest := by simp
    rw [whole] at names ⊢
    have named := (List.forall_mem_append.mp names).1
    by_cases last : rest = []
    · rw [last, List.append_nil]
      exact excludes_of_ending nonempty noneKeeps compile named isEnding
    · exact excludes_of_above nonempty noneKeeps names (by simp) last
        (excludes_of_ending nonempty noneKeeps compile named isEnding)

end Route

section Walk

variable {disk : Disk} {root : Path} {place : Route} {patterns others : List Text} {accepts : Path → Bool}

/-- A file at a route is built in as excluded, or stands below a directory that the exclude filter leaves out. -/
def IsLeftOut (root : Path) (patterns : List Text) (route : Route) : Prop :=
  IsBuiltInExcluded route ∨ ∃ above rest, above ≠ [] ∧ rest ≠ [] ∧ route = above ++ rest ∧
    (excludeFilter root patterns).excludes (Walk.pathOf root above) true = true

/-- What is left out is excluded. -/
theorem excludes_of_isLeftOut {route : Route} (nonempty : root ≠ []) (noneKeeps : NoneKeeps patterns)
    (compile : patternsCompile patterns = true) (names : ∀ name ∈ route, IsFileName name)
    (leftOut : IsLeftOut root patterns route) :
    (excludeFilter root patterns).excludes (Walk.pathOf root route) false = true := by
  rcases leftOut with builtIn | ⟨above, rest, below, longer, rfl, excluded⟩
  · exact excludes_of_builtIn nonempty noneKeeps compile names builtIn
  · exact excludes_of_above nonempty noneKeeps names below longer excluded

/-- A walk from a directory never fails. -/
theorem exists_walk (located : disk.locate root = .ok place) (directory : disk.entryAt? place = some .directory)
    (patterns : List Text) (accepts : Path → Bool) : ∃ sources, walk disk root patterns accepts = .ok sources := by
  cases dash : Path.sameParts root ['-'] with
  | false => exact ⟨_, walk_eq_collected located directory dash⟩
  | true => exact ⟨_, walk_of_dash located directory dash⟩

section Located

variable (tree : disk.IsTree) (named : disk.HasFileNames) (located : disk.locate root = .ok place)
variable (directory : disk.entryAt? place = some .directory)
include tree named located directory

/-- The less a filter excludes, the more a walk collects. -/
theorem walk_sublist_of_excludes {fewer more : List Source}
    (less : ∀ path, (excludeFilter root patterns).excludes path false = true →
      (excludeFilter root others).excludes path false = true)
    (isFewer : walk disk root others accepts = .ok fewer) (isMore : walk disk root patterns accepts = .ok more) :
    fewer.Sublist more := by
  have kept {path : Path} (alsoKept : (excludeFilter root others).excludes path false = false) :
      (excludeFilter root patterns).excludes path false = false :=
    eq_false_of_ne_true fun excluded => ne_true_of_eq_false alsoKept (less _ excluded)
  cases dash : Path.sameParts root ['-'] with
  | true =>
      rw [walk_of_dash located directory dash] at isFewer isMore
      rw [← Except.ok.inj isFewer, ← Except.ok.inj isMore]
      split
      · next both => rw [if_pos ⟨kept both.1, both.2⟩]
      · exact List.nil_sublist _
  | false =>
      rw [walk_eq_collected located directory dash] at isFewer isMore
      rw [← Except.ok.inj isFewer, ← Except.ok.inj isMore]
      refine List.Sublist.map _ (Disk.sublist_of_pairwise_comesBefore
        (Walk.pairwise_collected named root place others accepts)
        (Walk.pairwise_collected named root place patterns accepts) fun route member => ?_)
      have wanted := (mem_collected_iff directory tree).mp member
      exact (mem_collected_iff directory tree).mpr ⟨wanted.isEntry, wanted.reached, kept wanted.kept, wanted.accepted⟩

omit tree named located directory in
theorem patternsCompile_of_perm (same : patterns.Perm others) : patternsCompile patterns = patternsCompile others :=
  (same.filterMap _).all_eq

omit tree named located directory in
theorem NoneKeeps.of_perm (noneKeeps : NoneKeeps patterns) (same : others.Perm patterns) : NoneKeeps others :=
  fun pattern member => noneKeeps pattern (same.subset member)

/-- In which order patterns stand does not matter when none of them keeps anything. -/
theorem walk_of_perm (noneKeeps : NoneKeeps patterns) (same : others.Perm patterns) :
    walk disk root others accepts = walk disk root patterns accepts := by
  have alsoNoneKeeps := noneKeeps.of_perm same
  have compile := patternsCompile_of_perm same
  obtain ⟨sources, isWalk⟩ := exists_walk located directory patterns accepts
  obtain ⟨shuffled, isShuffled⟩ := exists_walk located directory others accepts
  have fewer : shuffled.Sublist sources := walk_sublist_of_excludes tree named located directory
    (fun path => excludes_mono noneKeeps alsoNoneKeeps same.symm.subset fun all => compile.trans all) isShuffled isWalk
  have more : sources.Sublist shuffled := walk_sublist_of_excludes tree named located directory
    (fun path => excludes_mono alsoNoneKeeps noneKeeps same.subset fun all => compile.symm.trans all) isWalk isShuffled
  rw [isShuffled, isWalk, fewer.antisymm more]

/-- A source of a walk is standard input or stands at a route that the filter does not leave out. -/
theorem not_isLeftOut_of_walk {sources : List Source} {source : Source} (noneKeeps : NoneKeeps patterns)
    (compile : patternsCompile patterns = true) (isWalk : walk disk root patterns accepts = .ok sources)
    (member : source ∈ sources) :
    (Path.sameParts root ['-'] = true ∧ source = ⟨standardInput, standardInput⟩) ∨
      ∃ route, source.IsAt disk root place route ∧ ¬ IsLeftOut root patterns route := by
  cases dash : Path.sameParts root ['-'] with
  | true =>
      rw [walk_of_dash located directory dash] at isWalk
      rw [← Except.ok.inj isWalk, List.mem_ite_nil_right] at member
      exact Or.inl ⟨rfl, List.mem_singleton.mp member.2⟩
  | false =>
      rw [walk_eq_collected located directory dash] at isWalk
      rw [← Except.ok.inj isWalk] at member
      obtain ⟨route, isCollected, rfl⟩ := List.mem_map.mp member
      have wanted := (mem_collected_iff directory tree).mp isCollected
      refine Or.inr ⟨route, wanted.isAt directory tree named located, fun leftOut => ?_⟩
      have nonempty := (Disk.locate_eq_ok_iff.mp located).1
      exact ne_true_of_eq_false wanted.kept
        (excludes_of_isLeftOut nonempty noneKeeps compile (wanted.names named) leftOut)

end Located

end Walk

end BranchCatalog
