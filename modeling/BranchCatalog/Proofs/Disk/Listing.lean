import BranchCatalog.Disk.Basic
import BranchCatalog.Proofs.PathBytes
import Mathlib.Data.List.Perm.Basic

namespace BranchCatalog.Disk

variable {disk : Disk} {place route rest left middle right : Route} {entry : Entry}

/-- All that a disk holds stands under names that can be written in paths. -/
def HasFileNames (disk : Disk) : Prop :=
  ∀ place, disk.entryAt? place ≠ none → ∀ name ∈ place, IsFileName name

theorem hasFileNames_empty : empty.HasFileNames := by
  intro place present
  by_cases root : place = []
  · simp [root]
  · simp [entryAt?, root, empty] at present

/-- A disk keeps to such names when an entry with such names is put on it. -/
theorem HasFileNames.put (named : disk.HasFileNames) (below : place ≠ [])
    (names : ∀ name ∈ place, IsFileName name) (entry : Entry) : (disk.put place entry).HasFileNames := by
  intro other present
  rw [entryAt?_put _ _ _ _ below] at present
  split at present
  · next same => exact same ▸ names
  · exact named other present

/-- A route comes before another one when the bytes of its names do. The first names that differ decide, and
a directory comes before what stands in it. -/
def ComesBefore (left right : Route) : Prop :=
  left.map Path.bytes < right.map Path.bytes

instance (left right : Route) : Decidable (ComesBefore left right) :=
  inferInstanceAs (Decidable (left.map Path.bytes < right.map Path.bytes))

section Order

theorem comesBefore_irrefl (route : Route) : ¬ ComesBefore route route :=
  List.lt_irrefl _

/-- Of two routes at most one comes before the other. -/
theorem comesBefore_asymm (forward : ComesBefore left right) : ¬ ComesBefore right left :=
  List.lt_asymm forward

theorem comesBefore_append_cons (route : Route) (name : Text) (rest : Route) :
    ComesBefore route (route ++ name :: rest) := by
  have longer : route.map Path.bytes ++ [] < route.map Path.bytes ++ (name :: rest).map Path.bytes :=
    List.append_left_lt (List.nil_lt_cons _ _)
  simpa [ComesBefore] using longer

/-- Below one directory the first names decide. -/
theorem comesBefore_of_names {name other : Text} (earlier : Path.bytes name < Path.bytes other)
    (route rest others : Route) :
    ComesBefore (route ++ name :: rest) (route ++ other :: others) := by
  have decided : route.map Path.bytes ++ (name :: rest).map Path.bytes <
      route.map Path.bytes ++ (other :: others).map Path.bytes :=
    List.append_left_lt (List.cons_lt_cons_iff.mpr (Or.inl earlier))
  simpa [ComesBefore] using decided

/-- The bytes of the first names decide, and then those of the rest. -/
theorem comesBefore_cons_iff {name other : Text} {others : Route} :
    ComesBefore (name :: rest) (other :: others) ↔
      Path.bytes name < Path.bytes other ∨ Path.bytes name = Path.bytes other ∧ ComesBefore rest others := by
  rw [ComesBefore, List.map_cons, List.map_cons, List.cons_lt_cons_iff]
  rfl

/-- Routes of file names are told apart by the bytes of their names. -/
theorem eq_of_map_bytes (names : ∀ name ∈ left, IsFileName name) (alsoNames : ∀ name ∈ right, IsFileName name)
    (same : left.map Path.bytes = right.map Path.bytes) : left = right := by
  have read {route : Route} (names : ∀ name ∈ route, IsFileName name) :
      (route.map Path.bytes).map Path.ofBytes = route := by
    rw [List.map_map]
    exact (List.map_congr_left fun name member => (names name member).ofBytes).trans (List.map_id route)
  rw [← read names, same, read alsoNames]

/-- What stands between two routes in a directory is in the directory. -/
theorem isPrefix_of_between {above : Route} (names : ∀ name ∈ above, IsFileName name)
    (alsoNames : ∀ name ∈ middle, IsFileName name) (first : ComesBefore left middle)
    (second : ComesBefore middle right) (inside : above <+: left) (alsoInside : above <+: right) :
    above <+: middle := by
  induction above generalizing left middle right with
  | nil => exact List.nil_prefix
  | cons name above inductionHypothesis =>
      obtain ⟨lefts, rfl⟩ := inside
      obtain ⟨rights, rfl⟩ := alsoInside
      rcases middle with _ | ⟨other, middle⟩
      · exact absurd first (List.not_lt_nil _)
      · obtain ⟨isName, names⟩ := List.forall_mem_cons.mp names
        obtain ⟨isOther, others⟩ := List.forall_mem_cons.mp alsoNames
        rcases comesBefore_cons_iff.mp first with earlier | ⟨same, firstRest⟩
        · rcases comesBefore_cons_iff.mp second with later | ⟨same, -⟩
          · exact absurd later (List.lt_asymm earlier)
          · exact absurd (same ▸ earlier) (List.lt_irrefl _)
        · obtain rfl := isName.eq_of_bytes isOther same
          rcases comesBefore_cons_iff.mp second with later | ⟨-, secondRest⟩
          · exact absurd later (List.lt_irrefl _)
          · exact List.cons_prefix_cons.mpr ⟨rfl, inductionHypothesis names others firstRest secondRest
              (List.prefix_append _ _) (List.prefix_append _ _)⟩

/-- When what comes before something inside is inside as well, the things inside come first. -/
theorem filter_prefix_of_pairwise {inside : Route → Bool} {routes : List Route}
    (closed : routes.Pairwise fun left right => inside right = true → inside left = true) :
    routes.filter inside <+: routes := by
  induction routes with
  | nil => exact List.nil_prefix
  | cons route routes inductionHypothesis =>
      obtain ⟨first, others⟩ := List.pairwise_cons.mp closed
      cases here : inside route with
      | true =>
          rw [List.filter_cons_of_pos here]
          exact List.cons_prefix_cons.mpr ⟨rfl, inductionHypothesis others⟩
      | false =>
          have none : routes.filter inside = [] := by
            refine List.filter_eq_nil_iff.mpr fun other member isInside => ?_
            exact Bool.false_ne_true (here.symm.trans (first other member isInside))
          rw [List.filter_cons_of_neg (by simp [here]), none]
          exact List.nil_prefix

/-- Of routes in order, those in one directory stand next to each other. -/
theorem filter_infix_of_pairwise {routes : List Route} (names : ∀ route ∈ routes, ∀ name ∈ route, IsFileName name)
    (ordered : routes.Pairwise ComesBefore) (above : Route) :
    routes.filter (above.isPrefixOf ·) <:+: routes := by
  induction routes with
  | nil => exact List.nil_infix
  | cons route routes inductionHypothesis =>
      obtain ⟨first, others⟩ := List.pairwise_cons.mp ordered
      obtain ⟨named, names⟩ := List.forall_mem_cons.mp names
      cases here : above.isPrefixOf route with
      | true =>
          have closed : routes.Pairwise fun left right =>
              above.isPrefixOf right = true → above.isPrefixOf left = true := by
            refine others.imp_of_mem fun {left right} member _ before isInside => ?_
            simp only [List.isPrefixOf_iff_prefix] at here isInside ⊢
            exact isPrefix_of_between (fun name inside => named name (here.subset inside)) (names left member)
              (first left member) before here isInside
          rw [List.filter_cons_of_pos here]
          exact (List.cons_prefix_cons.mpr ⟨rfl, filter_prefix_of_pairwise closed⟩).isInfix
      | false =>
          rw [List.filter_cons_of_neg (by simp [here])]
          exact List.infix_cons (inductionHypothesis names others)

/-- Routes in order are the same as others in order when they have the same members. -/
theorem eq_of_pairwise_comesBefore {routes others : List Route} (ordered : routes.Pairwise ComesBefore)
    (alsoOrdered : others.Pairwise ComesBefore) (same : ∀ route, route ∈ routes ↔ route ∈ others) :
    routes = others := by
  have distinct {routes : List Route} (ordered : routes.Pairwise ComesBefore) : routes.Nodup := by
    refine ordered.imp fun before equal => ?_
    exact comesBefore_irrefl _ (equal ▸ before)
  have permuted : routes.Perm others :=
    (List.perm_ext_iff_of_nodup (distinct ordered) (distinct alsoOrdered)).mpr same
  exact permuted.eq_of_pairwise (fun _ _ _ _ forward backward => absurd backward (comesBefore_asymm forward))
    ordered alsoOrdered

/-- Routes in order are a part of others in order when these have all of them. -/
theorem sublist_of_pairwise_comesBefore {routes others : List Route} (ordered : routes.Pairwise ComesBefore)
    (alsoOrdered : others.Pairwise ComesBefore) (inside : ∀ route ∈ routes, route ∈ others) :
    routes.Sublist others := by
  have filtered : others.filter (· ∈ routes) = routes := by
    refine eq_of_pairwise_comesBefore (alsoOrdered.filter _) ordered fun route => ?_
    rw [List.mem_filter, decide_eq_true_eq]
    exact ⟨And.right, fun member => ⟨inside route member, member⟩⟩
  rw [← filtered]
  exact List.filter_sublist

end Order

section Listing

/-- Below a place is what its route leads on to. -/
theorem below?_eq_some_iff : below? place route = some rest ↔ rest ≠ [] ∧ place ++ rest = route := by
  unfold below?
  split
  · next inside =>
      rw [Bool.and_eq_true, List.isPrefixOf_iff_prefix, decide_eq_true_eq] at inside
      obtain ⟨⟨more, rfl⟩, longer⟩ := inside
      have nonempty : more ≠ [] := by
        rintro rfl
        simp at longer
      simp only [List.drop_left, Option.some.injEq, List.append_cancel_left_eq]
      exact ⟨fun same => ⟨same ▸ nonempty, same.symm⟩, fun same => same.2.symm⟩
  · next outside =>
      refine iff_of_false nofun ?_
      rintro ⟨nonempty, rfl⟩
      have longer := List.length_pos_iff.mpr nonempty
      simp [List.isPrefixOf_iff_prefix] at outside
      exact nonempty outside

/-- Under distinct places, an entry is there when it is found under its place. -/
theorem mem_iff_lookup_eq_some {entries : List (Route × Entry)} (distinct : (entries.map (·.1)).Nodup) :
    (place, entry) ∈ entries ↔ entries.lookup place = some entry := by
  induction entries with
  | nil => simp
  | cons first entries inductionHypothesis =>
      obtain ⟨other, found⟩ := first
      obtain ⟨new, distinct⟩ := List.nodup_cons.mp distinct
      by_cases same : place = other
      · subst same
        have absent : (place, entry) ∉ entries := fun member => new (List.mem_map.mpr ⟨_, member, rfl⟩)
        simp [absent, eq_comm]
      · rw [lookup_cons_of_ne _ _ same, ← inductionHypothesis distinct]
        simp [same]

/-- What stands at a place below the root is what the disk holds there. -/
theorem mem_entries_iff (below : place ≠ []) :
    (place, entry) ∈ disk.entries ↔ disk.entryAt? place = some entry := by
  rw [entryAt?, if_neg below]
  exact mem_iff_lookup_eq_some disk.distinct

/-- Listed is exactly what stands below the place. -/
theorem mem_listing_iff :
    (rest, entry) ∈ disk.listing place ↔ rest ≠ [] ∧ disk.entryAt? (place ++ rest) = some entry := by
  have placed (nonempty : rest ≠ []) : place ++ rest ≠ [] := by simp [nonempty]
  rw [listing, List.mem_mergeSort, List.mem_filterMap]
  constructor
  · rintro ⟨⟨route, found⟩, member, below⟩
    obtain ⟨more, isBelow, same⟩ := Option.map_eq_some_iff.mp below
    obtain ⟨rfl, rfl⟩ := Prod.mk.inj same
    obtain ⟨nonempty, rfl⟩ := below?_eq_some_iff.mp isBelow
    exact ⟨nonempty, (mem_entries_iff (placed nonempty)).mp member⟩
  · rintro ⟨nonempty, stands⟩
    refine ⟨(place ++ rest, entry), (mem_entries_iff (placed nonempty)).mpr stands, ?_⟩
    simp [below?_eq_some_iff.mpr ⟨nonempty, rfl⟩]

/-- Entries are listed in order, each once. -/
theorem pairwise_listing (named : disk.HasFileNames) (place : Route) :
    (disk.listing place).Pairwise fun left right => ComesBefore left.1 right.1 := by
  have total (left right : Route × Entry) :
      (routePrecedes left.1 right.1 || routePrecedes right.1 left.1) = true := by
    simpa [routePrecedes] using List.le_total (left.1.map Path.bytes) (right.1.map Path.bytes)
  have transitive (left middle right : Route × Entry) (first : routePrecedes left.1 middle.1 = true)
      (second : routePrecedes middle.1 right.1 = true) : routePrecedes left.1 right.1 = true := by
    simp only [routePrecedes, decide_eq_true_eq] at first second ⊢
    exact List.le_trans first second
  have ordered : (disk.listing place).Pairwise fun left right => routePrecedes left.1 right.1 = true :=
    List.pairwise_mergeSort transitive total _
  have distinct : (disk.listing place).Pairwise fun left right => left.1 ≠ right.1 := by
    refine ((List.mergeSort_perm _ _).pairwise_iff fun different => Ne.symm different).mpr ?_
    refine List.pairwise_filterMap.mpr ((List.pairwise_map.mp disk.distinct).imp ?_)
    intro left right different found isFound other isOther same
    obtain ⟨rest, isBelow, rfl⟩ := Option.map_eq_some_iff.mp isFound
    obtain ⟨more, alsoBelow, rfl⟩ := Option.map_eq_some_iff.mp isOther
    refine different ?_
    rw [← (below?_eq_some_iff.mp isBelow).2, ← (below?_eq_some_iff.mp alsoBelow).2]
    exact congrArg _ same
  have names {found : Route × Entry} (member : found ∈ disk.listing place) :
      ∀ name ∈ found.1, IsFileName name := by
    intro name inside
    have stands := (mem_listing_iff.mp member).2
    exact named (place ++ found.1) (by simp [stands]) name (List.mem_append_right _ inside)
  refine (ordered.and distinct).imp_of_mem fun {left right} member alsoMember both => ?_
  refine Std.lt_of_le_of_ne (of_decide_eq_true both.1) fun same => both.2 ?_
  exact eq_of_map_bytes (names member) (names alsoMember) same

/-- Entries in order are the listing when they are all that stands below the place. -/
theorem listing_eq_of_perm (named : disk.HasFileNames) {found : List (Route × Entry)}
    (ordered : found.Pairwise fun left right => ComesBefore left.1 right.1)
    (same : (disk.entries.filterMap fun (route, entry) => (below? place route).map fun rest => (rest, entry)).Perm
      found) : disk.listing place = found :=
  ((List.mergeSort_perm _ _).trans same).eq_of_pairwise
    (fun _ _ _ _ forward backward => absurd backward (comesBefore_asymm forward)) (pairwise_listing named place)
    ordered

end Listing

end BranchCatalog.Disk
