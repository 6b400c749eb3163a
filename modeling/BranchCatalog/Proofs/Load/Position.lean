namespace BranchCatalog

variable {Item Result : Type}

/-- What the items of a list give rise to, in order, each judged with the items before it. -/
def along (judge : List Item → Item → Option Result) : List Item → List Result
  | [] => []
  | item :: later => (judge [] item).toList ++ along (fun earlier => judge (item :: earlier)) later

/-- The items of a second list are judged together with all of the first. -/
theorem along_append (judge : List Item → Item → Option Result) (first second : List Item) :
    along judge (first ++ second) =
      along judge first ++ along (fun earlier => judge (first ++ earlier)) second := by
  induction first generalizing judge with
  | nil => rfl
  | cons item first inductionHypothesis =>
      simp only [List.cons_append, along, inductionHypothesis, List.append_assoc]

/-- The last item is judged together with all others. -/
theorem along_concat (judge : List Item → Item → Option Result) (earlier : List Item) (item : Item) :
    along judge (earlier ++ [item]) = along judge earlier ++ (judge earlier item).toList := by
  simp only [along_append, along, List.append_nil]

/-- A result is what some item gives after the items before it. -/
theorem mem_along {judge : List Item → Item → Option Result} {items : List Item} {result : Result} :
    result ∈ along judge items ↔
      ∃ earlier item later, items = earlier ++ item :: later ∧ judge earlier item = some result := by
  induction items generalizing judge with
  | nil => simp [along]
  | cons head tail inductionHypothesis =>
      rw [along, List.mem_append, inductionHypothesis, Option.mem_toList]
      constructor
      · rintro (here | ⟨earlier, item, later, rfl, found⟩)
        · exact ⟨[], head, tail, rfl, here⟩
        · exact ⟨head :: earlier, item, later, rfl, found⟩
      · rintro ⟨earlier, item, later, split, found⟩
        cases earlier with
        | nil =>
            obtain ⟨rfl, rfl⟩ := List.cons.inj split
            exact Or.inl found
        | cons first earlier =>
            obtain ⟨rfl, rfl⟩ := List.cons.inj split
            exact Or.inr ⟨earlier, item, later, rfl, found⟩

/-- Two ways to judge give the same results when they agree at every place of the list. -/
theorem along_congr {judge other : List Item → Item → Option Result} {items : List Item}
    (agree : ∀ earlier item later, items = earlier ++ item :: later →
      judge earlier item = other earlier item) : along judge items = along other items := by
  induction items generalizing judge other with
  | nil => rfl
  | cons head tail inductionHypothesis =>
      have first := agree [] head tail rfl
      have rest : along (fun earlier => judge (head :: earlier)) tail =
          along (fun earlier => other (head :: earlier)) tail := by
        apply inductionHypothesis
        intro earlier item later split
        exact agree (head :: earlier) item later (by rw [split, List.cons_append])
      rw [along, along, first, rest]

/-- Results may be changed after the judging or in it. -/
theorem map_along {Image : Type} (image : Result → Image)
    (judge : List Item → Item → Option Result) (items : List Item) :
    (along judge items).map image = along (fun earlier item => (judge earlier item).map image) items := by
  induction items generalizing judge with
  | nil => rfl
  | cons head tail inductionHypothesis =>
      rw [along, along, List.map_append, inductionHypothesis]
      cases judge [] head <;> rfl

/-- Each item gives rise to at most one result. -/
theorem length_along (judge : List Item → Item → Option Result) (accepted : Item → Bool)
    (same : ∀ earlier item, (judge earlier item).isSome = accepted item) (items : List Item) :
    (along judge items).length = items.countP accepted := by
  induction items generalizing judge with
  | nil => rfl
  | cons head tail inductionHypothesis =>
      have rest := inductionHypothesis (fun earlier => judge (head :: earlier)) fun earlier item =>
        same (head :: earlier) item
      have first := same [] head
      rw [along, List.length_append, rest, List.countP_cons, ← first, Nat.add_comm]
      cases judge [] head <;> rfl

/-- The position, counted from zero, of the latest item that is wanted. -/
def latest? (wanted : List Item → Item → Bool) (items : List Item) : Option Nat :=
  (along (fun earlier item => if wanted earlier item then some earlier.length else none) items).getLast?

/-- The last item is the latest wanted one, or else it is found among the others. -/
theorem latest?_concat (wanted : List Item → Item → Bool) (earlier : List Item) (item : Item) :
    latest? wanted (earlier ++ [item]) =
      if wanted earlier item then some earlier.length else latest? wanted earlier := by
  simp only [latest?, along_concat]
  split <;> simp

/-- What is wanted in the second list is later than all of the first. -/
theorem latest?_append (wanted : List Item → Item → Bool) (first second : List Item) :
    latest? wanted (first ++ second) =
      ((latest? (fun earlier => wanted (first ++ earlier)) second).map (first.length + ·)).or
        (latest? wanted first) := by
  have shifted : along (fun earlier item =>
        if wanted (first ++ earlier) item then some (first ++ earlier).length else none) second =
      (along (fun earlier item =>
        if wanted (first ++ earlier) item then some earlier.length else none) second).map
          (first.length + ·) := by
    rw [map_along]
    apply along_congr
    intro earlier item later _
    by_cases chosen : wanted (first ++ earlier) item <;> simp [chosen]
  rw [latest?, along_append, List.getLast?_append, shifted, List.getLast?_map]
  rfl

/-- Only the wish about the items themselves matters. -/
theorem latest?_congr {wanted other : List Item → Item → Bool} {items : List Item}
    (agree : ∀ earlier item later, items = earlier ++ item :: later →
      wanted earlier item = other earlier item) : latest? wanted items = latest? other items := by
  rw [latest?, latest?]
  apply congrArg List.getLast?
  apply along_congr
  intro earlier item later split
  rw [agree earlier item later split]

/-- A latest position is that of a wanted item. -/
theorem exists_of_latest? {wanted : List Item → Item → Bool} {items : List Item} {position : Nat}
    (found : latest? wanted items = some position) :
    ∃ earlier item later, items = earlier ++ item :: later ∧ earlier.length = position ∧
      wanted earlier item = true := by
  obtain ⟨earlier, item, later, split, chosen⟩ := mem_along.mp (List.mem_of_getLast? found)
  by_cases accepted : wanted earlier item = true
  · rw [if_pos accepted] at chosen
    exact ⟨earlier, item, later, split, Option.some.inj chosen, accepted⟩
  · rw [if_neg accepted] at chosen
    contradiction

theorem latest?_lt {wanted : List Item → Item → Bool} {items : List Item} {position : Nat}
    (found : latest? wanted items = some position) : position < items.length := by
  obtain ⟨earlier, item, later, rfl, rfl, -⟩ := exists_of_latest? found
  rw [List.length_append, List.length_cons]
  omega

/-- Nothing is found when no item is wanted. -/
theorem latest?_eq_none_iff {wanted : List Item → Item → Bool} {items : List Item} :
    latest? wanted items = none ↔
      ∀ earlier item later, items = earlier ++ item :: later → wanted earlier item = false := by
  constructor
  · intro absent earlier item later split
    cases accepted : wanted earlier item with
    | false => rfl
    | true =>
        have member : earlier.length ∈ along (fun earlier item =>
            if wanted earlier item then some earlier.length else none) items :=
          mem_along.mpr ⟨earlier, item, later, split, by rw [accepted, if_pos rfl]⟩
        rw [List.getLast?_eq_none_iff.mp absent] at member
        exact absurd member List.not_mem_nil
  · intro refused
    cases found : latest? wanted items with
    | none => rfl
    | some position =>
        obtain ⟨earlier, item, later, split, -, accepted⟩ := exists_of_latest? found
        rw [refused earlier item later split] at accepted
        contradiction

/-- Something is found when some item is wanted. -/
theorem isSome_latest? (wanted : Item → Bool) (items : List Item) :
    (latest? (fun _ => wanted) items).isSome = items.any wanted := by
  rw [Bool.eq_iff_iff, List.any_eq_true, Option.isSome_iff_exists]
  constructor
  · rintro ⟨position, found⟩
    obtain ⟨earlier, item, later, rfl, -, chosen⟩ := exists_of_latest? found
    exact ⟨item, by simp, chosen⟩
  · rintro ⟨item, member, chosen⟩
    obtain ⟨earlier, later, split⟩ := List.append_of_mem member
    cases found : latest? (fun _ => wanted) items with
    | some position => exact ⟨position, rfl⟩
    | none =>
        rw [latest?_eq_none_iff.mp found earlier item later split] at chosen
        contradiction

/-- Items that are not wanted may be left out at the end. -/
theorem latest?_append_of_not {wanted : Item → Bool} {first second : List Item}
    (refused : ∀ item ∈ second, wanted item = false) :
    latest? (fun _ => wanted) (first ++ second) = latest? (fun _ => wanted) first := by
  have absent : latest? (fun _ => wanted) second = none := by
    rw [latest?_eq_none_iff]
    intro earlier item later split
    exact refused item (by simp [split])
  rw [latest?_append, absent, Option.map_none, Option.none_or]

/-- Nothing is wanted after the latest wanted item. -/
theorem eq_false_of_latest?_append {wanted : Item → Bool} {first second : List Item} {position : Nat}
    (found : latest? (fun _ => wanted) (first ++ second) = some position)
    (inside : position < first.length) : ∀ item ∈ second, wanted item = false := by
  rw [latest?_append] at found
  cases after : latest? (fun _ => wanted) second with
  | some later =>
      rw [after, Option.map_some, Option.some_or, Option.some.injEq] at found
      omega
  | none =>
      intro item member
      obtain ⟨earlier, later, split⟩ := List.append_of_mem member
      exact latest?_eq_none_iff.mp after earlier item later split

end BranchCatalog
