import BranchCatalog.Proofs.Sources.PassedOver
import Mathlib.Tactic.Choose

namespace BranchCatalog

open Disk (ComesBefore)

variable {disk : Disk} {root : Path} {place start route found : Route} {visited : List Route}

/-- Something stands at a route from a root and is not passed over. -/
def IsOpen (disk : Disk) (root : Path) (place route : Route) : Prop :=
  ∃ entry, disk.entryAt? (place ++ route) = some entry ∧
    ¬ IsPassedOver disk root place route (entry = .directory)

/-- What is visited from a route on, depth first. In a directory everything that is not passed over is visited
once, in the order of the bytes of the names. -/
inductive Visits (disk : Disk) (root : Path) (place : Route) : Route → List Route → Prop where
  | leaf {route : Route} {entry : Entry} (stands : disk.entryAt? (place ++ route) = some entry)
      (noDirectory : entry ≠ .directory) : Visits disk root place route [route]
  | directory {route : Route} {names : List Text} {visited : Text → List Route}
      (stands : disk.entryAt? (place ++ route) = some .directory)
      (ordered : names.Pairwise fun left right => Path.bytes left < Path.bytes right)
      (all : ∀ name, name ∈ names ↔ IsOpen disk root place (route ++ [name]))
      (each : ∀ name ∈ names, Visits disk root place (route ++ [name]) (visited name)) :
      Visits disk root place route (route :: names.flatMap visited)

/-- On the way on from a start nothing is passed over. -/
def LeadsOn (disk : Disk) (root : Path) (place start rest : Route) : Prop :=
  ∀ part, part ≠ [] → part <+: rest → IsOpen disk root place (start ++ part)

theorem leadsOn_nil : LeadsOn disk root place start [] :=
  fun _ nonempty inside => absurd (List.prefix_nil.mp inside) nonempty

theorem leadsOn_cons_iff {name : Text} {rest : Route} :
    LeadsOn disk root place start (name :: rest) ↔
      IsOpen disk root place (start ++ [name]) ∧ LeadsOn disk root place (start ++ [name]) rest := by
  constructor
  · refine fun leads => ⟨leads [name] (List.cons_ne_nil _ _) (by simp), fun part _ inside => ?_⟩
    have further := leads (name :: part) (List.cons_ne_nil _ _) (List.cons_prefix_cons.mpr ⟨rfl, inside⟩)
    rwa [List.append_assoc]
  · rintro ⟨here, leads⟩ part nonempty inside
    obtain ⟨first, part, rfl⟩ := List.exists_cons_of_ne_nil nonempty
    obtain ⟨rfl, further⟩ := List.cons_prefix_cons.mp inside
    by_cases last : part = []
    · rw [last]
      exact here
    · have further := leads part last further
      rwa [List.append_assoc] at further

/-- Visited is the start and everything below it that a way leads to. -/
theorem Visits.mem_iff (visits : Visits disk root place start visited) (tree : disk.IsTree) :
    found ∈ visited ↔ ∃ rest, found = start ++ rest ∧ LeadsOn disk root place start rest := by
  induction visits generalizing found with
  | @leaf route entry stands noDirectory =>
      rw [List.mem_singleton]
      constructor
      · rintro rfl
        exact ⟨[], (List.append_nil _).symm, leadsOn_nil⟩
      · rintro ⟨rest, rfl, leads⟩
        cases rest with
        | nil => exact List.append_nil _
        | cons name rest =>
            obtain ⟨below, present, -⟩ := (leadsOn_cons_iff.mp leads).1
            have there : disk.entryAt? (place ++ route ++ [name]) ≠ none := by
              rw [List.append_assoc, present]
              exact Option.some_ne_none below
            have directory := tree.directory_above (List.cons_ne_nil name []) there
            rw [stands] at directory
            exact absurd (Option.some.inj directory) noDirectory
  | @directory route names visited stands ordered all each inductionHypothesis =>
      rw [List.mem_cons, List.mem_flatMap]
      constructor
      · rintro (rfl | ⟨name, member, inside⟩)
        · exact ⟨[], (List.append_nil _).symm, leadsOn_nil⟩
        · obtain ⟨rest, rfl, leads⟩ := (inductionHypothesis name member).mp inside
          exact ⟨name :: rest, List.append_assoc .., leadsOn_cons_iff.mpr ⟨(all name).mp member, leads⟩⟩
      · rintro ⟨rest, rfl, leads⟩
        cases rest with
        | nil => exact Or.inl (List.append_nil _)
        | cons name rest =>
            obtain ⟨here, leads⟩ := leadsOn_cons_iff.mp leads
            have member := (all name).mpr here
            refine Or.inr ⟨name, member, (inductionHypothesis name member).mpr ⟨rest, ?_, leads⟩⟩
            rw [List.append_assoc, List.singleton_append]

/-- A visit goes through the routes in the order of the bytes of their names. -/
theorem Visits.pairwise (visits : Visits disk root place start visited) (tree : disk.IsTree) :
    visited.Pairwise ComesBefore := by
  induction visits with
  | leaf => exact List.pairwise_singleton _ _
  | @directory route names visited stands ordered all each inductionHypothesis =>
      have under {name : Text} (member : name ∈ names) {found : Route} (inside : found ∈ visited name) :
          ∃ rest, found = route ++ name :: rest := by
        obtain ⟨rest, rfl, -⟩ := ((each name member).mem_iff tree).mp inside
        exact ⟨rest, by simp⟩
      refine List.pairwise_cons.mpr ⟨fun found inside => ?_, List.pairwise_flatMap.mpr ⟨inductionHypothesis, ?_⟩⟩
      · obtain ⟨name, member, inside⟩ := List.mem_flatMap.mp inside
        obtain ⟨rest, rfl⟩ := under member inside
        exact Disk.comesBefore_append_cons route name rest
      · refine ordered.imp_of_mem fun {name other} member alsoMember earlier => ?_
        intro left leftInside right rightInside
        obtain ⟨rest, rfl⟩ := under member leftInside
        obtain ⟨others, rfl⟩ := under alsoMember rightInside
        exact Disk.comesBefore_of_names earlier route rest others

/-- There is one visit from a start only. -/
theorem Visits.unique (visits : Visits disk root place start visited) (tree : disk.IsTree) {others : List Route}
    (alsoVisits : Visits disk root place start others) : others = visited := by
  refine Disk.eq_of_pairwise_comesBefore (alsoVisits.pairwise tree) (visits.pairwise tree) fun found => ?_
  rw [alsoVisits.mem_iff tree, visits.mem_iff tree]

/-- The names in a directory that are not passed over, as they are listed. -/
def openNames (disk : Disk) (root : Path) (place route : Route) : List Text :=
  (disk.listing (place ++ route)).filterMap fun found =>
    if found.1.length = 1 ∧
        (Walk.start disk root place).passesOver (route ++ found.1) (found.2 = .directory) = false then
      found.1.head?
    else none

/-- The open names of a directory are those of what is not passed over in it. -/
theorem mem_openNames_iff (tree : disk.IsTree) {name : Text} :
    name ∈ openNames disk root place route ↔ IsOpen disk root place (route ++ [name]) := by
  have same {entry : Entry} (stands : disk.entryAt? (place ++ (route ++ [name])) = some entry) :
      (Walk.start disk root place).passesOver (route ++ [name]) (entry = .directory) = false ↔
        ¬ IsPassedOver disk root place (route ++ [name]) (entry = .directory) := by
    rw [← Walk.passesOver_iff tree (by simp [stands]), Bool.not_eq_true]
  rw [openNames, List.mem_filterMap, IsOpen]
  constructor
  · rintro ⟨⟨rest, entry⟩, listed, taken⟩
    obtain ⟨⟨single, reached⟩, first⟩ := Option.ite_none_right_eq_some.mp taken
    obtain ⟨other, rfl⟩ := List.length_eq_one_iff.mp single
    obtain rfl : other = name := Option.some.inj first
    have stands := (Disk.mem_listing_iff.mp listed).2
    rw [List.append_assoc] at stands
    exact ⟨entry, stands, (same stands).mp reached⟩
  · rintro ⟨entry, stands, reached⟩
    have listed := stands
    rw [← List.append_assoc] at listed
    exact ⟨([name], entry), Disk.mem_listing_iff.mpr ⟨List.cons_ne_nil _ _, listed⟩,
      if_pos ⟨rfl, (same stands).mpr reached⟩⟩

/-- Names are listed in the order of their bytes. -/
theorem pairwise_openNames (named : disk.HasFileNames) (root : Path) (place route : Route) :
    (openNames disk root place route).Pairwise fun left right => Path.bytes left < Path.bytes right := by
  refine List.pairwise_filterMap.mpr ((Disk.pairwise_listing named _).imp ?_)
  intro left right before name isFirst other isSecond
  obtain ⟨⟨single, -⟩, first⟩ := Option.ite_none_right_eq_some.mp isFirst
  obtain ⟨⟨alsoSingle, -⟩, second⟩ := Option.ite_none_right_eq_some.mp isSecond
  obtain ⟨found, isName⟩ := List.length_eq_one_iff.mp single
  obtain ⟨otherFound, isOther⟩ := List.length_eq_one_iff.mp alsoSingle
  rw [isName] at before first
  rw [isOther] at before second
  obtain rfl : found = name := Option.some.inj first
  obtain rfl : otherFound = other := Option.some.inj second
  rcases Disk.comesBefore_cons_iff.mp before with earlier | ⟨-, same⟩
  · exact earlier
  · exact absurd same (Disk.comesBefore_irrefl [])

/-- There is a visit from everything that stands on a disk. -/
theorem exists_visits (tree : disk.IsTree) (named : disk.HasFileNames)
    (stands : disk.entryAt? (place ++ start) ≠ none) : ∃ visited, Visits disk root place start visited := by
  obtain ⟨depth, bound⟩ : ∃ depth, ∀ rest, disk.entryAt? (place ++ start ++ rest) ≠ none →
      rest.length < depth := by
    refine ⟨((disk.listing (place ++ start)).map Prod.fst).flatten.length + 1, fun rest below => ?_⟩
    by_cases here : rest = []
    · rw [here]
      exact Nat.succ_pos _
    · obtain ⟨entry, stands⟩ := Option.ne_none_iff_exists'.mp below
      have listed : rest ∈ (disk.listing (place ++ start)).map Prod.fst :=
        List.mem_map.mpr ⟨_, Disk.mem_listing_iff.mpr ⟨here, stands⟩, rfl⟩
      exact Nat.lt_succ_of_le (List.sublist_flatten_of_mem listed).length_le
  -- on how many names can still lead on
  induction depth generalizing start with
  | zero =>
      rw [← List.append_nil (place ++ start)] at stands
      exact absurd (bound [] stands) (Nat.not_lt_zero _)
  | succ depth inductionHypothesis =>
      obtain ⟨entry, stands⟩ := Option.ne_none_iff_exists'.mp stands
      by_cases directory : entry = .directory
      · subst directory
        have each (name : Text) :
            ∃ visited, name ∈ openNames disk root place start →
              Visits disk root place (start ++ [name]) visited := by
          by_cases member : name ∈ openNames disk root place start
          · obtain ⟨inner, present, -⟩ := (mem_openNames_iff tree).mp member
            have shorter : ∀ rest, disk.entryAt? (place ++ (start ++ [name]) ++ rest) ≠ none →
                rest.length < depth := by
              intro rest below
              exact Nat.lt_of_succ_lt_succ (bound (name :: rest) (by simpa using below))
            obtain ⟨visited, visits⟩ := inductionHypothesis (by simp [present]) shorter
            exact ⟨visited, fun _ => visits⟩
          · exact ⟨[], fun inside => absurd inside member⟩
        choose visited visits using each
        exact ⟨_, .directory stands (pairwise_openNames named root place start) (fun _ => mem_openNames_iff tree)
          visits⟩
      · exact ⟨[start], .leaf stands directory⟩

end BranchCatalog
