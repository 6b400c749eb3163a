import BranchCatalog.Proofs.Failure
import BranchCatalog.Scan.Stream

namespace BranchCatalog

/-- What the scanner of a source makes of it; a source that no scanner accepts is passed over. -/
def scanOne (disk : Disk) (registry : Registry) (source : Source) :
    Option (Except Fault (List Event)) :=
  (registry.find? source.path).map fun scanner =>
    (source.read disk).bind (scanner.scan source.filename)

/-- The scanner for trees has scanned what it accepts and what can be read. -/
theorem exists_of_scanOne {disk : Disk} {extensions : List Text} {source : Source} {events : List Event}
    (scanned : scanOne disk [treeScanner extensions] source = some (.ok events)) :
    (treeScanner extensions).accepts source.path = true ∧ ∃ content, source.read disk = .ok content ∧
      Scan.scanSource source.filename content = .ok events := by
  obtain ⟨scanner, found, outcome⟩ := Option.map_eq_some_iff.mp scanned
  obtain rfl := List.mem_singleton.mp (List.mem_of_find?_eq_some found)
  obtain ⟨content, reading, scanned⟩ := bind_eq_ok_iff.mp outcome
  have accepted := List.find?_eq_some_iff_append.mp found
  exact ⟨accepted.1, content, reading, scanned⟩

/-- The events of the sources before the first one that fails, and its failure. -/
def scanAll (disk : Disk) (registry : Registry) : List Source → List Event × Option Fault
  | [] => ([], none)
  | source :: sources =>
    match scanOne disk registry source with
    | none => scanAll disk registry sources
    | some (.error fault) => ([], some fault)
    | some (.ok events) =>
      (events ++ (scanAll disk registry sources).1, (scanAll disk registry sources).2)

/-- A scan depends on the disk only through the content of its source. -/
theorem scanOne_congr {disk other : Disk} {registry : Registry} {source : Source}
    (same : source.read other = source.read disk) :
    scanOne other registry source = scanOne disk registry source := by
  rw [scanOne, scanOne, same]

/-- A scan depends on nothing of a disk but what its sources hold. -/
theorem scanAll_congr {disk other : Disk} {registry : Registry} {sources : List Source}
    (same : ∀ source ∈ sources, source.read other = source.read disk) :
    scanAll other registry sources = scanAll disk registry sources := by
  induction sources with
  | nil => rfl
  | cons source sources inductionHypothesis =>
      obtain ⟨first, rest⟩ := List.forall_mem_cons.mp same
      rw [scanAll, scanAll, scanOne_congr first, inductionHypothesis rest]

/-- The items of a scan: its events and then its failure. -/
def itemsOf (scanned : List Event × Option Fault) : List (Except Fault Event) :=
  scanned.1.map .ok ++ scanned.2.toList.map .error

/-- Sources in sequence are scanned one after another, unless the first ones fail. -/
theorem scanAll_append (disk : Disk) (registry : Registry) (first second : List Source) :
    scanAll disk registry (first ++ second) =
      match scanAll disk registry first with
      | (events, some fault) => (events, some fault)
      | (events, none) =>
        (events ++ (scanAll disk registry second).1, (scanAll disk registry second).2) := by
  induction first with
  | nil => rfl
  | cons source first inductionHypothesis =>
      rw [List.cons_append, scanAll, scanAll]
      rcases scanOne disk registry source with _ | fault | events
      · exact inductionHypothesis
      · rfl
      · rw [inductionHypothesis]
        rcases scanAll disk registry first with ⟨rest, _ | fault⟩
        · simp only [List.append_assoc]
        · rfl

namespace EventStream

variable {disk : Disk} {registry : Registry}

/-- A source that no scanner accepts, or whose scan gives nothing, is passed over. -/
theorem scanNext_cons (disk : Disk) (registry : Registry) (source : Source)
    (sources : List Source) :
    scanNext disk registry (source :: sources) =
      match scanOne disk registry source with
      | none => scanNext disk registry sources
      | some outcome => some (outcome, sources) := by
  rw [scanNext, scanOne]
  cases registry.find? source.path <;> rfl

/-- The first source that a scanner accepts decides how the items begin. -/
theorem itemsOf_scanAll (disk : Disk) (registry : Registry) (sources : List Source) :
    itemsOf (scanAll disk registry sources) =
      match scanNext disk registry sources with
      | none => []
      | some (.error fault, _) => [.error fault]
      | some (.ok events, rest) => events.map .ok ++ itemsOf (scanAll disk registry rest) := by
  induction sources with
  | nil => rfl
  | cons source sources inductionHypothesis =>
      rw [scanAll, scanNext_cons]
      rcases scanOne disk registry source with _ | fault | events
      · exact inductionHypothesis
      · rfl
      · simp only [itemsOf, List.map_append, List.append_assoc]

/-- The stream is filled from the next source that gives something. -/
theorem refill_eq (disk : Disk) (registry : Registry) (sources : List Source) :
    refill disk registry sources =
      match scanNext disk registry sources with
      | none => (none, ⟨registry, [], [], true⟩)
      | some (.error fault, rest) => (some (.error fault), ⟨registry, rest, [], true⟩)
      | some (.ok (event :: events), rest) => (some (.ok event), ⟨registry, rest, events, false⟩)
      | some (.ok [], rest) => refill disk registry rest := by
  rw [refill]
  split <;> next scanned => rw [scanned]

theorem takeAll_of_none {stream after : EventStream} (taken : stream.next disk = (none, after)) :
    stream.takeAll disk = [] := by
  rw [takeAll]
  split
  · rfl
  · next other => simp [taken] at other

/-- Taking all takes the first item and then all others. -/
theorem takeAll_of_some {stream after : EventStream} {item : Except Fault Event}
    (taken : stream.next disk = (some item, after)) :
    stream.takeAll disk = item :: after.takeAll disk := by
  rw [takeAll]
  split
  · next other => simp [taken] at other
  · next other =>
      rw [taken] at other
      cases other
      rfl

/-- Streams with the same next item have the same items. -/
theorem takeAll_congr {stream other : EventStream} (same : stream.next disk = other.next disk) :
    stream.takeAll disk = other.takeAll disk := by
  rcases taken : other.next disk with ⟨_ | item, after⟩
  · rw [takeAll_of_none taken, takeAll_of_none (same.trans taken)]
  · rw [takeAll_of_some taken, takeAll_of_some (same.trans taken)]

/-- A stream that is done gives nothing more. -/
theorem takeAll_of_done {stream : EventStream} (finished : stream.done = true) :
    stream.takeAll disk = [] := by
  have taken : stream.next disk = (none, stream) := by rw [next, if_pos finished]
  exact takeAll_of_none taken

/-- A stream that is not done gives its pending events and then what its sources give. -/
theorem takeAll_eq (disk : Disk) (registry : Registry) (sources : List Source)
    (pending : List Event) :
    takeAll disk ⟨registry, sources, pending, false⟩ =
      pending.map .ok ++ itemsOf (scanAll disk registry sources) := by
  induction size : sources.length using Nat.strongRecOn generalizing sources pending with
  | ind size inductionHypothesis =>
      induction pending with
      | cons event pending rest =>
          have taken : next disk ⟨registry, sources, event :: pending, false⟩ =
            (some (.ok event), ⟨registry, sources, pending, false⟩) := rfl
          rw [takeAll_of_some taken, rest]
          rfl
      | nil =>
          have taken : next disk ⟨registry, sources, [], false⟩ = refill disk registry sources := rfl
          rw [refill_eq] at taken
          rw [itemsOf_scanAll, List.map_nil, List.nil_append]
          rcases scanned : scanNext disk registry sources with _ | ⟨fault | _ | ⟨event, events⟩, rest⟩
          · rw [scanned] at taken
            exact takeAll_of_none taken
          · rw [scanned] at taken
            rw [takeAll_of_some taken, takeAll_of_done rfl]
          · rw [scanned] at taken
            have shorter := scanNext_length_lt scanned
            have same : next disk ⟨registry, sources, [], false⟩ =
              next disk ⟨registry, rest, [], false⟩ := taken
            exact (takeAll_congr same).trans (inductionHypothesis _ (size ▸ shorter) rest [] rfl)
          · rw [scanned] at taken
            have shorter := scanNext_length_lt scanned
            rw [takeAll_of_some taken, inductionHypothesis _ (size ▸ shorter) rest events rfl]
            rfl

/-- All items of a stream are those of its sources, one after another. -/
theorem takeAll_start (disk : Disk) (registry : Registry) (sources : List Source) :
    (start registry sources).takeAll disk = itemsOf (scanAll disk registry sources) :=
  takeAll_eq disk registry sources []

end EventStream

end BranchCatalog
