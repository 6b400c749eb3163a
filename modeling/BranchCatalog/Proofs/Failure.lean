import Mathlib.Data.List.Forall2
import Mathlib.Logic.Basic

namespace BranchCatalog

variable {Row Entity Next Failure : Type}

/-- A sequence of steps gives an answer when its first step gives one and the rest does from there. -/
theorem bind_eq_ok_iff {first : Except Failure Entity} {next : Entity → Except Failure Next}
    {answer : Next} :
    (first >>= next) = .ok answer ↔ ∃ between, first = .ok between ∧ next between = .ok answer := by
  cases first <;> simp [bind, Except.bind]

/-- A sequence of steps fails with the fault of its first step, or with that of the rest. -/
theorem bind_eq_error_iff {first : Except Failure Entity} {next : Entity → Except Failure Next}
    {fault : Failure} :
    (first >>= next) = .error fault ↔
      first = .error fault ∨ ∃ between, first = .ok between ∧ next between = .error fault := by
  cases first <;> simp [bind, Except.bind]

/-- A fault of a reworded step is a reworded fault. -/
theorem exists_of_mapError_eq_error {Cause : Type} {step : Except Cause Entity}
    {failure : Cause → Failure} {fault : Failure} (failed : step.mapError failure = .error fault) :
    ∃ cause, fault = failure cause := by
  cases step with
  | ok answer => cases failed
  | error cause =>
      cases failed
      exact ⟨cause, rfl⟩

/-- Rewording the faults of a step changes no answer. -/
theorem mapError_eq_ok_iff {Cause : Type} {step : Except Cause Entity} {failure : Cause → Failure}
    {answer : Entity} : step.mapError failure = .ok answer ↔ step = .ok answer := by
  cases step <;> simp [Except.mapError]

/-- Changing the answers of a step changes no fault. -/
theorem map_eq_error_iff {step : Except Failure Entity} {image : Entity → Next} {fault : Failure} :
    step.map image = .error fault ↔ step = .error fault := by
  cases step <;> simp [Except.map]

theorem pure_eq_ok_iff {given answer : Entity} :
    (pure given : Except Failure Entity) = .ok answer ↔ answer = given := by
  simp [pure, Except.pure, eq_comm]

theorem throw_ne_ok {fault : Failure} {answer : Entity} :
    (throw fault : Except Failure Entity) ≠ .ok answer :=
  nofun

/-- A step that keeps a state goes on from the state that the step before it leaves, unless that one fails. -/
theorem run_bind {State : Type} (step : ExceptT Failure (StateM State) Entity)
    (next : Entity → ExceptT Failure (StateM State) Next) (state : State) :
    (step >>= next).run.run state =
      match step.run.run state with
      | (.ok answer, after) => (next answer).run.run after
      | (.error fault, after) => (.error fault, after) := by
  cases answered : step.run.run state with
  | mk answer after =>
      cases answer <;> simp only [ExceptT.run_bind, StateT.run_bind, answered] <;> rfl

/-- Reading is the same for rows that are read in the same way. -/
theorem mapM_congr {read other : Row → Except Failure Entity} {rows : List Row}
    (same : ∀ row ∈ rows, read row = other row) : rows.mapM read = rows.mapM other := by
  induction rows with
  | nil => rfl
  | cons row rows inductionHypothesis =>
      have first := same row List.mem_cons_self
      have rest := inductionHypothesis fun row member => same row (List.mem_cons_of_mem _ member)
      rw [List.mapM_cons, List.mapM_cons, first, rest]

/-- Rows that cannot be read together hold a row that cannot be read. -/
theorem exists_of_mapM_eq_error {read : Row → Except Failure Entity} {rows : List Row} {fault : Failure}
    (failed : rows.mapM read = .error fault) : ∃ row ∈ rows, read row = .error fault := by
  induction rows with
  | nil => cases failed
  | cons row rows inductionHypothesis =>
      rw [List.mapM_cons, bind_eq_error_iff] at failed
      rcases failed with first | ⟨answer, -, rest⟩
      · exact ⟨row, List.mem_cons_self, first⟩
      · rcases bind_eq_error_iff.mp rest with later | ⟨answers, -, never⟩
        · obtain ⟨other, member, unread⟩ := inductionHypothesis later
          exact ⟨other, List.mem_cons_of_mem row member, unread⟩
        · cases never

variable {read : Row → Except Failure Entity} {readable : Row → Prop} {entity : Row → Entity}

/-- Rows that can each be read can be read together. -/
theorem mapM_eq_ok_map {rows : List Row} (each : ∀ row ∈ rows, read row = .ok (entity row)) :
    rows.mapM read = .ok (rows.map entity) :=
  (mapM_congr each).trans List.mapM_pure

/-- Rows can be read together exactly when each of them can be read. -/
theorem mapM_eq_ok_iff (each : ∀ row answer, read row = .ok answer ↔ readable row ∧ answer = entity row)
    {rows : List Row} {answers : List Entity} :
    rows.mapM read = .ok answers ↔ (∀ row ∈ rows, readable row) ∧ answers = rows.map entity := by
  induction rows generalizing answers with
  | nil => simp [pure_eq_ok_iff]
  | cons row rows inductionHypothesis =>
      simp only [List.mapM_cons, bind_eq_ok_iff, pure_eq_ok_iff, each, inductionHypothesis,
        List.forall_mem_cons, List.map_cons, and_assoc, exists_and_left, exists_eq_left]

/-- Reading rows gives one answer for each row, in their order. -/
theorem mapM_eq_ok_iff_forall₂ {rows : List Row} {answers : List Entity} :
    rows.mapM read = .ok answers ↔ List.Forall₂ (fun row answer => read row = .ok answer) rows answers := by
  induction rows generalizing answers with
  | nil => simp [pure_eq_ok_iff]
  | cons row rows inductionHypothesis =>
      simp only [List.mapM_cons, bind_eq_ok_iff, pure_eq_ok_iff, inductionHypothesis,
        List.forall₂_cons_left_iff]
      constructor
      · rintro ⟨answer, first, others, rest, rfl⟩
        exact ⟨answer, others, first, rest, rfl⟩
      · rintro ⟨answer, others, first, rest, rfl⟩
        exact ⟨answer, first, others, rest, rfl⟩

/-- A row that may be missing can be read when it is missing. -/
theorem mapM_option_eq_ok_iff
    (each : ∀ row answer, read row = .ok answer ↔ readable row ∧ answer = entity row)
    {row : Option Row} {answer : Option Entity} :
    row.mapM read = .ok answer ↔ (∀ found, row = some found → readable found) ∧
      answer = row.map entity := by
  cases row with
  | none => simp [pure_eq_ok_iff]
  | some found =>
      simp only [Option.mapM_some, map_eq_pure_bind, bind_eq_ok_iff, pure_eq_ok_iff, each,
        Option.some.injEq, forall_eq', Option.map_some, and_assoc, exists_and_left, exists_eq_left]

end BranchCatalog
