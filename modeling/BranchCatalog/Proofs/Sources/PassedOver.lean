import BranchCatalog.Proofs.Disk.Listing
import BranchCatalog.Proofs.Disk.Tree
import BranchCatalog.Sources.Walk
import Mathlib.Data.List.Induction

namespace BranchCatalog

variable {disk : Disk} {root : Path} {place route : Route} {isDirectory : Bool}

/-- In a tree, what has something below it is a directory. -/
theorem Disk.IsTree.directory_above (tree : disk.IsTree) {place rest : Route} (below : rest ≠ [])
    (stands : disk.entryAt? (place ++ rest) ≠ none) : disk.entryAt? place = some .directory := by
  induction rest using List.reverseRecOn with
  | nil => contradiction
  | append_singleton rest name inductionHypothesis =>
      have directory := tree.parents _ stands
      rw [← List.append_assoc, List.dropLast_concat] at directory
      by_cases last : rest = []
      · rwa [last, List.append_nil] at directory
      · exact inductionHypothesis last (by simp [directory])

/-- In a tree, every place on the way to something is a directory. -/
theorem Disk.IsTree.directory_of_prefix (tree : disk.IsTree) {above : Route} (inside : above <+: route)
    (different : above ≠ route) (stands : disk.entryAt? (place ++ route) ≠ none) :
    disk.entryAt? (place ++ above) = some .directory := by
  obtain ⟨rest, rfl⟩ := inside
  rw [← List.append_assoc] at stands
  exact tree.directory_above (List.self_eq_append_right.not.mp different) stands

/-- The lists of rules that have a say in a route below a root, the strongest first, each with the path under which
it sees the route: for each kind of ignore file those of the directories above the route, nearest first, and last
that of the user. -/
def rulings (disk : Disk) (root : Path) (place route : Route) : List (IgnoreList × Path) :=
  let known := IgnoreList.withoutHere (Walk.pathOf root route)
  ignoreFiles.flatMap (fun file =>
    (properStarts route).map (fun above =>
      (rulesAt disk (place ++ above ++ file) (Walk.pathOf root above), known)) ++
    (properStarts place).map fun above =>
      (rulesAt disk (above ++ file) (absolutePath above), absolutePath (place ++ route))) ++
  (disk.userIgnore.map fun user => (rulesAt disk user [], known)).toList

/-- A rule is about a route that its list sees under a path. -/
def IsAbout (isDirectory : Bool) (ruling : IgnoreList × Path) (rule : IgnoreRule) : Prop :=
  rule.concerns (Path.bytes (ruling.1.relative ruling.2)) isDirectory = true

/-- The rule that decides is about a route and is the last such rule of its list, and no stronger list has a rule
that is. -/
def Decides (rulings : List (IgnoreList × Path)) (isDirectory : Bool) (rule : IgnoreRule) : Prop :=
  ∃ stronger ruling weaker earlier later, rulings = stronger ++ ruling :: weaker ∧
    ruling.1.rules = earlier ++ rule :: later ∧ IsAbout isDirectory ruling rule ∧
    (∀ other ∈ later, ¬ IsAbout isDirectory ruling other) ∧
    ∀ before ∈ stronger, ∀ other ∈ before.1.rules, ¬ IsAbout isDirectory before other

/-- The name of a route starts with a dot. -/
def IsHidden (route : Route) : Prop :=
  ∃ above name, route = above ++ ['.' :: name]

/-- A route is passed over when the rule that decides on it ignores it, or when it is hidden and no rule that
decides on it keeps it. -/
def IsPassedOver (disk : Disk) (root : Path) (place route : Route) (isDirectory : Bool) : Prop :=
  (∃ rule, Decides (rulings disk root place route) isDirectory rule ∧ rule.keeps = false) ∨
    IsHidden route ∧ ¬ ∃ rule, Decides (rulings disk root place route) isDirectory rule ∧ rule.keeps = true

namespace Verdict

theorem firstOf_append (first second : List Verdict) :
    firstOf (first ++ second) = (firstOf first).orElse (firstOf second) := by
  induction first with
  | nil => rfl
  | cons verdict first inductionHypothesis =>
      rw [List.cons_append, firstOf, List.foldr_cons, ← firstOf, inductionHypothesis]
      cases verdict <;> rfl

theorem firstOf_undecided {verdicts : List Verdict} (none : ∀ verdict ∈ verdicts, verdict = .undecided) :
    firstOf verdicts = .undecided := by
  rw [List.eq_replicate_of_mem none]
  induction verdicts.length with
  | zero => rfl
  | succ count inductionHypothesis => exact inductionHypothesis

end Verdict

section Decision

variable {rulings : List (IgnoreList × Path)} {ruling : IgnoreList × Path} {rule : IgnoreRule}

/-- The verdict of all lists together. -/
def verdictAmong (rulings : List (IgnoreList × Path)) (isDirectory : Bool) : Verdict :=
  .firstOf (rulings.map fun ruling => ruling.1.verdict ruling.2 isDirectory)

/-- Stronger lists decide before weaker ones. -/
theorem verdictAmong_append (first second : List (IgnoreList × Path)) (isDirectory : Bool) :
    verdictAmong (first ++ second) isDirectory =
      (verdictAmong first isDirectory).orElse (verdictAmong second isDirectory) := by
  rw [verdictAmong, List.map_append, Verdict.firstOf_append]
  rfl

theorem verdictAmong_flatMap {Kind : Type} (kinds : List Kind) (lists : Kind → List (IgnoreList × Path))
    (isDirectory : Bool) :
    verdictAmong (kinds.flatMap lists) isDirectory =
      .firstOf (kinds.map fun kind => verdictAmong (lists kind) isDirectory) := by
  induction kinds with
  | nil => rfl
  | cons kind kinds inductionHypothesis =>
      rw [List.flatMap_cons, verdictAmong_append, inductionHypothesis]
      rfl

/-- A list that is not about a route has no say in it. -/
theorem verdict_of_none (none : ∀ rule ∈ ruling.1.rules, ¬ IsAbout isDirectory ruling rule) :
    ruling.1.verdict ruling.2 isDirectory = .undecided := by
  rw [IgnoreList.verdict, IgnoreList.lastVerdict, List.find?_eq_none.mpr]
  exact fun rule member => none rule (List.mem_reverse.mp member)

/-- The last rule of a list that is about a route decides for the list. -/
theorem verdict_of_last {earlier later : List IgnoreRule} (split : ruling.1.rules = earlier ++ rule :: later)
    (about : IsAbout isDirectory ruling rule) (last : ∀ other ∈ later, ¬ IsAbout isDirectory ruling other) :
    ruling.1.verdict ruling.2 isDirectory = if rule.keeps then .kept else .ignored := by
  have found : ruling.1.rules.reverse.find? (fun rule =>
      rule.concerns (Path.bytes (ruling.1.relative ruling.2)) isDirectory) = some rule := by
    refine List.find?_eq_some_iff_append.mpr ⟨about, later.reverse, earlier.reverse, by simp [split], ?_⟩
    intro other member
    simpa [IsAbout] using last other (List.mem_reverse.mp member)
  rw [IgnoreList.verdict, IgnoreList.lastVerdict, found]

/-- The rule that decides gives the verdict of all lists. -/
theorem Decides.verdictAmong_eq (decides : Decides rulings isDirectory rule) :
    verdictAmong rulings isDirectory = if rule.keeps then .kept else .ignored := by
  obtain ⟨stronger, ruling, weaker, earlier, later, rfl, split, about, last, none⟩ := decides
  have silent : Verdict.firstOf (stronger.map fun ruling => ruling.1.verdict ruling.2 isDirectory) =
      .undecided := by
    refine Verdict.firstOf_undecided fun verdict member => ?_
    obtain ⟨before, isBefore, rfl⟩ := List.mem_map.mp member
    exact verdict_of_none (none before isBefore)
  rw [verdictAmong, List.map_append, Verdict.firstOf_append, silent, List.map_cons, verdict_of_last split about last]
  split <;> rfl

/-- A rule decides, or no rule is about the route at all. -/
theorem exists_decides_or_none (rulings : List (IgnoreList × Path)) (isDirectory : Bool) :
    (∃ rule, Decides rulings isDirectory rule) ∨
      ∀ ruling ∈ rulings, ∀ rule ∈ ruling.1.rules, ¬ IsAbout isDirectory ruling rule := by
  induction rulings with
  | nil => exact Or.inr (by simp)
  | cons ruling rulings inductionHypothesis =>
      cases found : ruling.1.rules.reverse.find? (fun rule =>
          rule.concerns (Path.bytes (ruling.1.relative ruling.2)) isDirectory) with
      | some rule =>
          obtain ⟨about, later, earlier, split, last⟩ := List.find?_eq_some_iff_append.mp found
          refine Or.inl ⟨rule, [], ruling, rulings, earlier.reverse, later.reverse, rfl, ?_, about, ?_, by simp⟩
          · simpa using congrArg List.reverse split
          · intro other member
            simpa [IsAbout] using last other (List.mem_reverse.mp member)
      | none =>
          have none : ∀ rule ∈ ruling.1.rules, ¬ IsAbout isDirectory ruling rule := fun rule member =>
            List.find?_eq_none.mp found rule (List.mem_reverse.mpr member)
          rcases inductionHypothesis with ⟨rule, stronger, other, weaker, earlier, later, rfl, decides⟩ | silent
          · obtain ⟨split, about, last, clear⟩ := decides
            exact Or.inl ⟨rule, ruling :: stronger, other, weaker, earlier, later, rfl, split, about, last,
              List.forall_mem_cons.mpr ⟨none, clear⟩⟩
          · exact Or.inr (List.forall_mem_cons.mpr ⟨none, silent⟩)

/-- Without a rule about the route there is no verdict. -/
theorem verdictAmong_of_none (none : ∀ ruling ∈ rulings, ∀ rule ∈ ruling.1.rules, ¬ IsAbout isDirectory ruling rule) :
    verdictAmong rulings isDirectory = .undecided := by
  refine Verdict.firstOf_undecided fun verdict member => ?_
  obtain ⟨ruling, isRuling, rfl⟩ := List.mem_map.mp member
  exact verdict_of_none (none ruling isRuling)

end Decision

namespace Walk

/-- The proper starts of a route are the shorter ones. -/
theorem mem_properStarts_iff {above : Route} : above ∈ properStarts route ↔ above <+: route ∧ above ≠ route := by
  rw [properStarts, List.mem_map]
  constructor
  · rintro ⟨count, member, rfl⟩
    have shorter : count < route.length := by simpa using member
    refine ⟨List.take_prefix _ _, fun whole => ?_⟩
    have same := congrArg List.length whole
    rw [List.length_take] at same
    omega
  · rintro ⟨⟨rest, rfl⟩, different⟩
    have more : rest ≠ [] := List.self_eq_append_right.not.mp different
    exact ⟨above.length, by simpa using List.length_pos_iff.mpr more, List.take_left⟩

theorem isHidden_iff : isHidden route = true ↔ IsHidden route := by
  rcases List.eq_nil_or_concat' route with rfl | ⟨above, name, rfl⟩
  · simp [isHidden, IsHidden]
  · cases name with
    | nil => simp [isHidden, IsHidden]
    | cons char name => simp [isHidden, IsHidden]

theorem lookup_map_of_mem {Value : Type} (value : Route → Value) {keys : List Route} {key : Route}
    (member : key ∈ keys) : (keys.map fun key => (key, value key)).lookup key = some (value key) := by
  induction keys with
  | nil => contradiction
  | cons first keys inductionHypothesis =>
      rw [List.map_cons]
      by_cases same : key = first
      · rw [same, List.lookup_cons_self]
      · rw [List.lookup_cons, beq_false_of_ne same]
        exact inductionHypothesis ((List.mem_cons.mp member).resolve_left same)

section Start

variable (tree : disk.IsTree) (stands : disk.entryAt? (place ++ route) ≠ none)
include tree stands

/-- The rules of all directories above a route are prepared. -/
theorem lookup_rulesBelow {above : Route} (member : above ∈ properStarts route) :
    (start disk root place).rulesBelow.lookup above =
      some (directoryRules disk (place ++ above) (pathOf root above)) := by
  refine lookup_map_of_mem (fun above => directoryRules disk (place ++ above) (pathOf root above)) ?_
  obtain ⟨inside, different⟩ := mem_properStarts_iff.mp member
  have directory := tree.directory_of_prefix inside different stands
  by_cases top : above = []
  · exact top ▸ List.mem_cons_self
  · refine List.mem_cons_of_mem _ (List.mem_filterMap.mpr ⟨(above, .directory), ?_, if_pos rfl⟩)
    exact Disk.mem_listing_iff.mpr ⟨top, directory⟩

/-- A walk lets the directories below its root decide before those above it. -/
theorem verdictOf_start {kind : Nat} {file : Route} (listed : ignoreFiles[kind]? = some file) :
    (start disk root place).verdictOf kind route isDirectory =
      verdictAmong ((properStarts route).map (fun above =>
          (rulesAt disk (place ++ above ++ file) (pathOf root above), IgnoreList.withoutHere (pathOf root route))) ++
        (properStarts place).map fun above =>
          (rulesAt disk (above ++ file) (absolutePath above), absolutePath (place ++ route))) isDirectory := by
  have below : (properStarts route).filterMap (fun above =>
      (start disk root place).rulesBelow.lookup above) =
      (properStarts route).map fun above => directoryRules disk (place ++ above) (pathOf root above) := by
    rw [← List.filterMap_eq_map]
    exact List.filterMap_congr fun above member => lookup_rulesBelow tree stands member
  have kindOf (place : Route) (path : Path) :
      (directoryRules disk place path)[kind]? = some (rulesAt disk (place ++ file) path) := by
    rw [directoryRules, List.getElem?_map, listed, Option.map_some]
  have above : (start disk root place).rulesAbove =
      (properStarts place).map fun above => directoryRules disk above (absolutePath above) := rfl
  simp only [verdictOf, below, above, verdictAmong, List.map_append, List.map_map, Function.comp_def, kindOf,
    Option.map_some, Option.getD_some]
  rfl

/-- What a walk says about a route is what all its lists say together. -/
theorem verdict_start : (start disk root place).verdict route isDirectory =
    verdictAmong (rulings disk root place route) isDirectory := by
  have kinds : (List.range ignoreFiles.length).map (fun kind =>
      (start disk root place).verdictOf kind route isDirectory) = ignoreFiles.map fun file =>
        verdictAmong ((properStarts route).map (fun above =>
            (rulesAt disk (place ++ above ++ file) (pathOf root above),
              IgnoreList.withoutHere (pathOf root route))) ++
          (properStarts place).map fun above =>
            (rulesAt disk (above ++ file) (absolutePath above), absolutePath (place ++ route))) isDirectory := by
    refine List.ext_getElem (by simp) fun kind within _ => ?_
    simp only [List.getElem_map, List.getElem_range]
    exact verdictOf_start tree stands (List.getElem?_eq_getElem (by simpa using within))
  have user : (start disk root place).userRules =
      (disk.userIgnore.map fun place => rulesAt disk place []).getD (.ofLines [] []) := rfl
  have known : (start disk root place).root = root := rfl
  rw [verdict, kinds, user, known, rulings, verdictAmong_append, verdictAmong_flatMap, Verdict.firstOf_append]
  cases disk.userIgnore with
  | none =>
      have silent := @verdict_of_none isDirectory (.ofLines [] [], IgnoreList.withoutHere (pathOf root route))
        (by simp [IgnoreList.ofLines])
      rw [Option.map_none, Option.getD_none, silent]
      rfl
  | some place => rfl

/-- A walk passes over exactly what is to be passed over. -/
theorem passesOver_iff :
    (start disk root place).passesOver route isDirectory = true ↔ IsPassedOver disk root place route isDirectory := by
  rw [passesOver, verdict_start tree stands, IsPassedOver]
  have kept {rule : IgnoreRule} (decides : Decides (rulings disk root place route) isDirectory rule) :=
    decides.verdictAmong_eq
  rcases exists_decides_or_none (rulings disk root place route) isDirectory with ⟨rule, decides⟩ | none
  · rw [kept decides]
    cases keeps : rule.keeps with
    | false => exact iff_of_true rfl (Or.inl ⟨rule, decides, keeps⟩)
    | true =>
        refine iff_of_false nofun ?_
        rintro (⟨other, alsoDecides, ignores⟩ | ⟨-, unkept⟩)
        · have same := (kept decides).symm.trans (kept alsoDecides)
          rw [keeps, ignores] at same
          cases same
        · exact unkept ⟨rule, decides, keeps⟩
  · have never : ¬ ∃ rule, Decides (rulings disk root place route) isDirectory rule := by
      rintro ⟨rule, decides⟩
      have decided := kept decides
      rw [verdictAmong_of_none none] at decided
      split at decided <;> cases decided
    rw [verdictAmong_of_none none, ← isHidden_iff]
    constructor
    · exact fun hidden => Or.inr ⟨hidden, fun ⟨rule, decides, _⟩ => never ⟨rule, decides⟩⟩
    · rintro (⟨rule, decides, -⟩ | ⟨hidden, -⟩)
      · exact absurd ⟨rule, decides⟩ never
      · exact hidden

end Start

end Walk

end BranchCatalog
