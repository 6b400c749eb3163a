/-
This file scans a list of sources lazily: a source is read only when the events of the sources before
it have been taken, and the first failure ends the stream.
-/

import BranchCatalog.Scan.Source
import BranchCatalog.Sources.Basic

namespace BranchCatalog

/-- A stream holds the sources that are still to be scanned and the events that are still to be
taken; it is done after its last item. -/
structure EventStream where
  registry : Registry
  sources : List Source
  pending : List Event
  done : Bool

namespace EventStream

/-- The stream over sources of which none has been read. -/
def start (registry : Registry) (sources : List Source) : EventStream :=
  ⟨registry, sources, [], false⟩

/-- Scans the first source that a scanner accepts, and gives its events and the sources after it. -/
def scanNext (disk : Disk) (registry : Registry) :
    List Source → Option (Except Fault (List Event) × List Source)
  | [] => none
  | source :: sources =>
    match registry.find? source.path with
    | none => scanNext disk registry sources
    | some scanner =>
      some ((source.read disk).bind (scanner.scan source.filename), sources)

/-- A source that has been scanned is no longer among those to come. -/
theorem scanNext_length_lt {disk : Disk} {registry : Registry} {sources rest : List Source}
    {outcome : Except Fault (List Event)}
    (scanned : scanNext disk registry sources = some (outcome, rest)) :
    rest.length < sources.length := by
  induction sources with
  | nil => simp [scanNext] at scanned
  | cons source sources inductionHypothesis =>
      simp only [scanNext] at scanned
      split at scanned
      · exact Nat.lt_succ_of_lt (inductionHypothesis scanned)
      · simp only [Option.some.injEq, Prod.mk.injEq] at scanned
        rw [← scanned.2]
        exact Nat.lt_succ_self _

/-- Looks for the next item in the sources that are left when no event is pending. -/
def refill (disk : Disk) (registry : Registry) (sources : List Source) :
    Option (Except Fault Event) × EventStream :=
  match _scanned : scanNext disk registry sources with
  | none => (none, ⟨registry, [], [], true⟩)
  | some (.error fault, rest) => (some (.error fault), ⟨registry, rest, [], true⟩)
  | some (.ok (event :: events), rest) => (some (.ok event), ⟨registry, rest, events, false⟩)
  | some (.ok [], rest) => refill disk registry rest
termination_by sources.length
decreasing_by exact scanNext_length_lt _scanned

/-- Takes the next item of a stream, reading a source from the disk when none is pending. -/
def next (disk : Disk) (stream : EventStream) : Option (Except Fault Event) × EventStream :=
  if stream.done then (none, stream)
  else
    match stream.pending with
    | event :: pending => (some (.ok event), { stream with pending })
    | [] => refill disk stream.registry stream.sources

/-- How far a stream is from its end: how many sources it may still read, and how many events are
pending. -/
def remaining (stream : EventStream) : Nat × Nat :=
  (if stream.done then 0 else stream.sources.length + 1, stream.pending.length)

theorem refill_remaining_lt {disk : Disk} {registry : Registry} {sources : List Source}
    {item : Except Fault Event} {stream : EventStream}
    (refilled : refill disk registry sources = (some item, stream)) :
    stream.remaining.1 < sources.length + 1 := by
  fun_induction refill disk registry sources with
  | case1 => simp at refilled
  | case2 sources fault rest scanned =>
      obtain ⟨-, rfl⟩ := Prod.mk.inj refilled
      simp [remaining]
  | case3 sources event events rest scanned =>
      obtain ⟨-, rfl⟩ := Prod.mk.inj refilled
      have shorter := scanNext_length_lt scanned
      simpa [remaining] using shorter
  | case4 sources rest scanned inductionHypothesis =>
      have shorter := scanNext_length_lt scanned
      exact Nat.lt_trans (inductionHypothesis refilled) (Nat.succ_lt_succ shorter)

theorem next_remaining_lt {disk : Disk} {stream after : EventStream} {item : Except Fault Event}
    (taken : stream.next disk = (some item, after)) :
    Prod.Lex (· < ·) (· < ·) after.remaining stream.remaining := by
  unfold next at taken
  split at taken
  · simp at taken
  · next unfinished =>
      have start : stream.remaining = (stream.sources.length + 1, stream.pending.length) := by
        simp [remaining, unfinished]
      rw [start]
      split at taken
      · next event pending pendingIs =>
          obtain ⟨-, rfl⟩ := Prod.mk.inj taken
          have finish : remaining { stream with pending } =
              (stream.sources.length + 1, pending.length) := by
            simp [remaining, unfinished]
          rw [finish, pendingIs]
          exact Prod.Lex.right _ (Nat.lt_succ_self _)
      · exact Prod.Lex.left _ _ (refill_remaining_lt taken)

/-- All items of a stream, taken one after another while the disk stays as it is. -/
def takeAll (disk : Disk) (stream : EventStream) : List (Except Fault Event) :=
  match _taken : stream.next disk with
  | (none, _) => []
  | (some item, after) => item :: takeAll disk after
termination_by stream.remaining
decreasing_by exact next_remaining_lt _taken

end EventStream

end BranchCatalog
