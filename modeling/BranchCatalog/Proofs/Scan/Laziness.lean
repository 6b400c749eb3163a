/-
This file lets each call on a lazy stream see a disk of its own, so that it shows when a source is read. The
answers are the events of the sources one after another, each scanned on the disk of the call that comes when
all events before it have been taken, and no other call reads it.
-/

import BranchCatalog.Proofs.Scan.Sequence

namespace BranchCatalog

/-- The events of the sources before the first one that fails, and its failure, when a number of events have
been taken and each source is scanned on the disk of the call that takes the event behind those of the sources
before it. -/
def scanFrom (disks : Nat → Disk) (registry : Registry) :
    Nat → List Source → List Event × Option Fault
  | _, [] => ([], none)
  | taken, source :: sources =>
    match scanOne (disks taken) registry source with
    | none => scanFrom disks registry taken sources
    | some (.error fault) => ([], some fault)
    | some (.ok events) =>
      (events ++ (scanFrom disks registry (taken + events.length) sources).1,
        (scanFrom disks registry (taken + events.length) sources).2)

/-- On a disk that stays as it is, it does not matter how many events have been taken. -/
theorem scanFrom_const (disk : Disk) (registry : Registry) (taken : Nat) (sources : List Source) :
    scanFrom (fun _ => disk) registry taken sources = scanAll disk registry sources := by
  induction sources generalizing taken with
  | nil => rfl
  | cons source sources inductionHypothesis =>
      rw [scanFrom, scanAll]
      rcases scanOne disk registry source with _ | fault | events
      · exact inductionHypothesis taken
      · rfl
      · simp only [inductionHypothesis]

/-- Behind sources that do not fail, the scan goes on with their events taken. -/
theorem scanFrom_append {disks : Nat → Disk} {registry : Registry} {taken : Nat} {first : List Source}
    {events : List Event} (complete : scanFrom disks registry taken first = (events, none))
    (second : List Source) :
    scanFrom disks registry taken (first ++ second) =
      (events ++ (scanFrom disks registry (taken + events.length) second).1,
        (scanFrom disks registry (taken + events.length) second).2) := by
  induction first generalizing taken events with
  | nil =>
      cases complete
      rfl
  | cons source first inductionHypothesis =>
      rw [List.cons_append, scanFrom]
      rw [scanFrom] at complete
      rcases scanned : scanOne (disks taken) registry source with _ | fault | own
      · rw [scanned] at complete
        exact inductionHypothesis complete
      · simp [scanned] at complete
      · simp only [scanned, Prod.mk.injEq] at complete
        obtain ⟨rfl, unfailed⟩ := complete
        simp only [inductionHypothesis (Prod.ext rfl unfailed), List.append_assoc,
          List.length_append, Nat.add_assoc]

namespace EventStream

variable {disks : Nat → Disk} {registry : Registry}

/-- The stream after a number of calls, each of which sees its own disk. -/
def after (disks : Nat → Disk) (stream : EventStream) : Nat → EventStream
  | 0 => stream
  | calls + 1 => ((stream.after disks calls).next (disks calls)).2

/-- The answer to a call, where the first call has the number zero. -/
def answer (disks : Nat → Disk) (stream : EventStream) (call : Nat) : Option (Except Fault Event) :=
  ((stream.after disks call).next (disks call)).1

/-- The sources that a search for the next event reads: those that a scanner accepts, up to the first one that
has an event or fails. -/
def searched (disk : Disk) (registry : Registry) : List Source → List Source
  | [] => []
  | source :: sources =>
    match scanOne disk registry source with
    | none => searched disk registry sources
    | some (.ok []) => source :: searched disk registry sources
    | some _ => [source]

/-- The sources that the next call reads: none while events are pending or after the last item. -/
def toRead (disk : Disk) (stream : EventStream) : List Source :=
  if stream.done ∨ stream.pending ≠ [] then [] else searched disk stream.registry stream.sources

def reads (disks : Nat → Disk) (stream : EventStream) (call : Nat) : List Source :=
  (stream.after disks call).toRead (disks call)

section Step

/-- The next source is read, and its first event is given out, or its fault. -/
theorem refill_cons (disk : Disk) (registry : Registry) (source : Source) (sources : List Source) :
    refill disk registry (source :: sources) =
      match scanOne disk registry source with
      | none => refill disk registry sources
      | some (.error fault) => (some (.error fault), ⟨registry, sources, [], true⟩)
      | some (.ok (event :: events)) => (some (.ok event), ⟨registry, sources, events, false⟩)
      | some (.ok []) => refill disk registry sources := by
  rw [refill_eq, scanNext_cons]
  rcases scanOne disk registry source with _ | _ | _ | _
  · exact (refill_eq disk registry sources).symm
  · rfl
  · rfl
  · rfl

/-- A source is silent when no scanner accepts it or its scan has no events. -/
def IsSilent (disk : Disk) (registry : Registry) (source : Source) : Prop :=
  scanOne disk registry source = none ∨ scanOne disk registry source = some (.ok [])

theorem refill_of_isSilent {disk : Disk} {source : Source} (silent : IsSilent disk registry source)
    (sources : List Source) : refill disk registry (source :: sources) = refill disk registry sources := by
  rw [refill_cons]
  rcases silent with scanned | scanned <;> rw [scanned]

theorem scanFrom_of_isSilent {call : Nat} {silent : List Source}
    (quiet : ∀ source ∈ silent, IsSilent (disks call) registry source) :
    scanFrom disks registry call silent = ([], none) := by
  induction silent with
  | nil => rfl
  | cons source silent inductionHypothesis =>
      obtain ⟨here, rest⟩ := List.forall_mem_cons.mp quiet
      rcases here with scanned | scanned <;> simp [scanFrom, scanned, inductionHypothesis rest]

/-- A source that is not silent ends a search with its failure or with the first of its events. -/
inductive EndsSearch (disk : Disk) (registry : Registry) (source : Source) (later : List Source) :
    Option (Except Fault Event) × EventStream → Prop where
  | failure {fault : Fault} (scanned : scanOne disk registry source = some (.error fault)) :
      EndsSearch disk registry source later (some (.error fault), ⟨registry, later, [], true⟩)
  | event {event : Event} {events : List Event}
      (scanned : scanOne disk registry source = some (.ok (event :: events))) :
      EndsSearch disk registry source later (some (.ok event), ⟨registry, later, events, false⟩)

/-- A search passes over silent sources, and is over without an answer when there are no others. -/
theorem refill_cases (disk : Disk) (registry : Registry) (sources : List Source) :
    ∃ silent, (∀ source ∈ silent, IsSilent disk registry source) ∧
      (sources = silent ∧ refill disk registry sources = (none, ⟨registry, [], [], true⟩) ∨
        ∃ source later, sources = silent ++ source :: later ∧
          EndsSearch disk registry source later (refill disk registry sources)) := by
  induction sources with
  | nil => exact ⟨[], by simp, .inl ⟨rfl, by simp [refill_eq, scanNext]⟩⟩
  | cons first sources inductionHypothesis =>
      by_cases quiet : IsSilent disk registry first
      · rw [refill_of_isSilent quiet]
        obtain ⟨silent, others, found⟩ := inductionHypothesis
        refine ⟨first :: silent, List.forall_mem_cons.mpr ⟨quiet, others⟩, ?_⟩
        rcases found with ⟨rfl, ended⟩ | ⟨source, later, rfl, ends⟩
        · exact .inl ⟨rfl, ended⟩
        · exact .inr ⟨source, later, rfl, ends⟩
      · refine ⟨[], by simp, .inr ⟨first, sources, rfl, ?_⟩⟩
        rw [refill_cons]
        rcases scanned : scanOne disk registry first with _ | fault | _ | ⟨event, events⟩
        · exact absurd (.inl scanned) quiet
        · exact .failure scanned
        · exact absurd (.inr scanned) quiet
        · exact .event scanned

/-- The items that a stream gives from a call on. -/
def itemsLeft (disks : Nat → Disk) (call : Nat) (stream : EventStream) : List (Except Fault Event) :=
  if stream.done then []
  else stream.pending.map .ok ++
    itemsOf (scanFrom disks stream.registry (call + stream.pending.length) stream.sources)

/-- A search answers with the first item of its sources, and leaves the others. -/
theorem refill_eq_items (disks : Nat → Disk) (registry : Registry) (call : Nat) (sources : List Source) :
    (refill (disks call) registry sources).1 =
        (itemsOf (scanFrom disks registry call sources)).head? ∧
      itemsLeft disks (call + 1) (refill (disks call) registry sources).2 =
        (itemsOf (scanFrom disks registry call sources)).tail := by
  obtain ⟨silent, quiet, ⟨rfl, ended⟩ | ⟨source, later, rfl, ends⟩⟩ :=
    refill_cases (disks call) registry sources
  · rw [ended, scanFrom_of_isSilent quiet]
    exact ⟨rfl, rfl⟩
  · rw [scanFrom_append (scanFrom_of_isSilent quiet), scanFrom]
    generalize refill (disks call) registry (silent ++ source :: later) = result at ends
    cases ends with
    | failure scanned => simp [scanned, itemsOf, itemsLeft]
    | @event event events scanned =>
        have count : call + (events.length + 1) = call + 1 + events.length := by omega
        simp [scanned, itemsOf, itemsLeft, count]

/-- A call answers with the first item that is left, and leaves the others. -/
theorem next_eq_itemsLeft (disks : Nat → Disk) (call : Nat) (stream : EventStream) :
    (stream.next (disks call)).1 = (itemsLeft disks call stream).head? ∧
      itemsLeft disks (call + 1) (stream.next (disks call)).2 =
        (itemsLeft disks call stream).tail := by
  obtain ⟨registry, sources, pending, done⟩ := stream
  cases done with
  | true => exact ⟨rfl, rfl⟩
  | false =>
      cases pending with
      | nil => exact refill_eq_items disks registry call sources
      | cons event pending =>
          have count : call + (pending.length + 1) = call + 1 + pending.length := by omega
          simp [itemsLeft, next, count]

end Step

section Run

/-- Each call takes one item, until there are none. -/
theorem itemsLeft_after (disks : Nat → Disk) (stream : EventStream) (call : Nat) :
    itemsLeft disks call (stream.after disks call) = (itemsLeft disks 0 stream).drop call := by
  induction call with
  | zero => rfl
  | succ call inductionHypothesis =>
      rw [after, (next_eq_itemsLeft disks call _).2, inductionHypothesis, List.tail_drop]

/-- The answers are the items of the sources, one after another, and then nothing. -/
theorem answer_start (disks : Nat → Disk) (registry : Registry) (sources : List Source) (call : Nat) :
    (start registry sources).answer disks call =
      (itemsOf (scanFrom disks registry 0 sources))[call]? := by
  rw [answer, (next_eq_itemsLeft disks call _).1, itemsLeft_after, List.head?_drop]
  rfl

end Run

section Reading

variable {sources : List Source} {call : Nat}

/-- A source that a search reads is accepted by a scanner, and the sources that the search has left behind have
no events. -/
theorem exists_of_mem_searched {source : Source}
    (member : source ∈ searched (disks call) registry sources) :
    ∃ earlier later, sources = earlier ++ source :: later ∧
      (registry.find? source.path).isSome = true ∧
      scanFrom disks registry call earlier = ([], none) := by
  induction sources with
  | nil => contradiction
  | cons first sources inductionHypothesis =>
      rw [searched] at member
      have accepted {outcome : Except Fault (List Event)}
          (scanned : scanOne (disks call) registry first = some outcome) :
          (registry.find? first.path).isSome = true := by
        simpa [scanOne] using congrArg Option.isSome scanned
      rcases scanned : scanOne (disks call) registry first with _ | fault | _ | ⟨event, events⟩
      · rw [scanned] at member
        obtain ⟨earlier, later, rfl, found, unfailed⟩ := inductionHypothesis member
        exact ⟨first :: earlier, later, rfl, found, by simpa [scanFrom, scanned] using unfailed⟩
      · rw [scanned] at member
        obtain rfl := List.mem_singleton.mp member
        exact ⟨[], sources, rfl, accepted scanned, rfl⟩
      · rw [scanned] at member
        rcases List.mem_cons.mp member with rfl | member
        · exact ⟨[], sources, rfl, accepted scanned, rfl⟩
        · obtain ⟨earlier, later, rfl, found, unfailed⟩ := inductionHypothesis member
          exact ⟨first :: earlier, later, rfl, found, by simp [scanFrom, scanned, unfailed]⟩
      · rw [scanned] at member
        obtain rfl := List.mem_singleton.mp member
        exact ⟨[], sources, rfl, accepted scanned, rfl⟩

/-- A search that is not over has scanned the sources that it left behind, and gives the first of their
events. -/
theorem exists_of_refill (unfinished : (refill (disks call) registry sources).2.done = false) :
    ∃ earlier event, sources = earlier ++ (refill (disks call) registry sources).2.sources ∧
      (refill (disks call) registry sources).2.registry = registry ∧
      scanFrom disks registry call earlier =
        (event :: (refill (disks call) registry sources).2.pending, none) := by
  obtain ⟨silent, quiet, ⟨-, ended⟩ | ⟨source, later, split, ends⟩⟩ :=
    refill_cases (disks call) registry sources
  · simp [ended] at unfinished
  · generalize refill (disks call) registry sources = result at ends unfinished
    cases ends with
    | failure => contradiction
    | @event event events scanned =>
        refine ⟨silent ++ [source], event, by simpa using split, rfl, ?_⟩
        rw [scanFrom_append (scanFrom_of_isSilent quiet)]
        simp [scanFrom, scanned]

/-- A stream has scanned the first of its sources without a failure, each on the disk of its call. Some of their
events have been taken and the others are pending. -/
structure HasScanned (disks : Nat → Disk) (registry : Registry) (sources earlier : List Source)
    (taken : List Event) (stream : EventStream) : Prop where
  registered : stream.registry = registry
  split : sources = earlier ++ stream.sources
  scanned : scanFrom disks registry 0 earlier = (taken ++ stream.pending, none)

/-- A call that does not end the stream takes one more event. -/
theorem HasScanned.next {stream : EventStream} {earlier : List Source} {taken : List Event}
    (before : HasScanned disks registry sources earlier taken stream)
    (unfinished : (stream.next (disks taken.length)).2.done = false) :
    ∃ more event, HasScanned disks registry sources (earlier ++ more) (taken ++ [event])
      (stream.next (disks taken.length)).2 := by
  obtain ⟨_, left, pending, done⟩ := stream
  obtain ⟨rfl, split, scanned⟩ := before
  cases done with
  | true => contradiction
  | false =>
      cases pending with
      | cons event pending =>
          refine ⟨[], event, rfl, ?_, ?_⟩
          · rw [List.append_nil]
            exact split
          · rw [List.append_nil, scanned]
            simp [EventStream.next]
      | nil =>
          obtain ⟨more, event, moreSplit, same, whole⟩ := exists_of_refill unfinished
          refine ⟨more, event, same, ?_, ?_⟩
          · rw [split, List.append_assoc]
            exact congrArg (earlier ++ ·) moreSplit
          · rw [List.append_nil] at scanned
            rw [scanFrom_append scanned, Nat.zero_add, whole]
            simp [EventStream.next]

/-- Before each call, a stream that is not done has taken one event in each of the calls before. -/
theorem exists_hasScanned (disks : Nat → Disk) (registry : Registry) (sources : List Source) (call : Nat)
    (unfinished : ((start registry sources).after disks call).done = false) :
    ∃ earlier taken, taken.length = call ∧
      HasScanned disks registry sources earlier taken ((start registry sources).after disks call) := by
  induction call with
  | zero => exact ⟨[], [], rfl, rfl, rfl, rfl⟩
  | succ call inductionHypothesis =>
      have before : ((start registry sources).after disks call).done = false := by
        rw [← Bool.not_eq_true]
        intro done
        rw [after, EventStream.next, if_pos done, done] at unfinished
        contradiction
      obtain ⟨earlier, taken, rfl, scanned⟩ := inductionHypothesis before
      obtain ⟨more, event, scanned⟩ := scanned.next unfinished
      exact ⟨earlier ++ more, taken ++ [event], by simp, scanned⟩

/-- The answers to the first calls are the events of the first sources when these do not fail. -/
theorem answers_of_scanFrom {earlier later : List Source} {events : List Event}
    (complete : scanFrom disks registry 0 earlier = (events, none)) :
    (List.range events.length).map ((start registry (earlier ++ later)).answer disks) =
      events.map fun event => some (.ok event) := by
  apply List.ext_getElem?
  intro position
  by_cases inside : position < events.length
  · rw [List.getElem?_map, List.getElem?_range inside, Option.map_some, answer_start,
      scanFrom_append complete, itemsOf, List.map_append, List.append_assoc,
      List.getElem?_append_left (by simpa using inside)]
    simp [inside]
  · simp [inside]

/-- A source is read by a call that is made when exactly the events of the sources before it have been taken. -/
theorem exists_of_mem_reads {source : Source}
    (member : source ∈ (start registry sources).reads disks call) :
    ∃ earlier later events, sources = earlier ++ source :: later ∧
      (registry.find? source.path).isSome = true ∧
      scanFrom disks registry 0 earlier = (events, none) ∧ events.length = call := by
  rw [reads, toRead] at member
  split at member
  · contradiction
  · next reading =>
      rw [not_or, Bool.not_eq_true, not_not] at reading
      obtain ⟨first, taken, rfl, registered, split, scanned⟩ :=
        exists_hasScanned disks registry sources call reading.1
      rw [registered] at member
      obtain ⟨skipped, later, left, accepted, none⟩ := exists_of_mem_searched member
      rw [reading.2, List.append_nil] at scanned
      refine ⟨first ++ skipped, later, taken, ?_, accepted, ?_, rfl⟩
      · rw [split, left, List.append_assoc]
      · rw [scanFrom_append scanned, Nat.zero_add, none, List.append_nil]

end Reading

section Locality

variable {disk other : Disk}

/-- Whether a scanner accepts a source does not depend on the disk. -/
theorem scanOne_eq_none_of_eq_none {source : Source} (refused : scanOne disk registry source = none) :
    scanOne other registry source = none :=
  Option.map_eq_none_iff.mpr (Option.map_eq_none_iff.mp refused)

/-- A search depends on no other sources than those that it reads. -/
theorem refill_congr {sources : List Source}
    (same : ∀ source ∈ searched disk registry sources, source.read other = source.read disk) :
    refill other registry sources = refill disk registry sources := by
  induction sources with
  | nil => simp [refill_eq, scanNext]
  | cons first sources inductionHypothesis =>
      have first_mem (accepted : scanOne disk registry first ≠ none) :
          first ∈ searched disk registry (first :: sources) := by
        rw [searched]
        split
        · contradiction
        · exact List.mem_cons_self
        · exact List.mem_cons_self
      rw [refill_cons, refill_cons]
      rcases scanned : scanOne disk registry first with _ | outcome
      · rw [scanOne_eq_none_of_eq_none scanned]
        exact inductionHypothesis (by simpa [searched, scanned] using same)
      · rw [scanOne_congr (same first (first_mem (by simp [scanned]))), scanned]
        rcases outcome with fault | _ | ⟨event, events⟩
        · rfl
        · exact inductionHypothesis fun source member => same source (by simp [searched, scanned, member])
        · rfl

/-- A call depends on no other sources than those that it reads. -/
theorem next_congr {stream : EventStream}
    (same : ∀ source ∈ stream.toRead disk, source.read other = source.read disk) :
    stream.next other = stream.next disk := by
  obtain ⟨registry, sources, pending, done⟩ := stream
  cases done with
  | true => rfl
  | false =>
      cases pending with
      | cons event pending => rfl
      | nil => exact refill_congr (by simpa [toRead] using same)

/-- Only what a call reads matters to its answer. -/
theorem answer_congr {others : Nat → Disk} {stream : EventStream}
    (same : ∀ call, ∀ source ∈ stream.reads disks call,
      source.read (others call) = source.read (disks call)) (call : Nat) :
    stream.answer others call = stream.answer disks call := by
  have states (call : Nat) : stream.after others call = stream.after disks call := by
    induction call with
    | zero => rfl
    | succ call inductionHypothesis =>
        rw [after, after, inductionHypothesis, next_congr (same call)]
  rw [answer, answer, states, next_congr (same call)]

end Locality

/-- When every call sees its own disk, the answers are the events of the accepted sources one after another, up
to the first source that fails, then its failure, and then nothing. A source is scanned on the disk of the call
that comes when the events of all sources before it have been taken. No other call reads it, so a source behind a
failure is not read at all, and what calls do not read does not change their answers. -/
theorem answer_start_lazily (registry : Registry) (sources : List Source) (disks : Nat → Disk) :
    let stream := start registry sources
    (∀ call, stream.answer disks call = (itemsOf (scanFrom disks registry 0 sources))[call]?) ∧
    (∀ disk, scanFrom (fun _ => disk) registry 0 sources = scanAll disk registry sources) ∧
    (∀ call, ∀ source ∈ stream.reads disks call, ∃ earlier later events,
      sources = earlier ++ source :: later ∧ (registry.find? source.path).isSome = true ∧
      scanFrom disks registry 0 earlier = (events, none) ∧
      (List.range call).map (stream.answer disks) = events.map fun event => some (.ok event)) ∧
    ∀ others, (∀ call, ∀ source ∈ stream.reads disks call,
        source.read (others call) = source.read (disks call)) →
      ∀ call, stream.answer others call = stream.answer disks call := by
  intro stream
  refine ⟨answer_start disks registry sources, fun disk => scanFrom_const disk registry 0 sources, ?_,
    fun others same => answer_congr same⟩
  intro call source member
  obtain ⟨earlier, later, events, rfl, accepted, complete, rfl⟩ := exists_of_mem_reads member
  exact ⟨earlier, later, events, rfl, accepted, complete, answers_of_scanFrom complete⟩

/-- The second of two accepted sources is not there when the first one is read, but it is when the events of
the first one have been taken. What stands in a source that no scanner accepts makes no difference. -/
theorem answer_start_lazily_of_late_source :
    let early := Disk.empty.put [['a', '.', 'c']] (.file [])
    let late := early.put [['b', '.', 'c']] (.file [])
    let disks (call : Nat) := if call = 0 then early else late
    let others (call : Nat) := if call = 0 then early else late.put [['n']] (.file [])
    let sources : List Source := [⟨['n'], ['n']⟩, ⟨['a', '.', 'c'], ['a']⟩, ⟨['b', '.', 'c'], ['b']⟩]
    let stream := start [treeScanner [['c']]] sources
    (∀ call, stream.answer disks call = [.ok (.file ['a']), .ok (.file ['b'])][call]?) ∧
      ∀ call, stream.answer others call = stream.answer disks call := by
  intro early late disks others sources stream
  obtain ⟨answers, -, read, unread⟩ := answer_start_lazily [treeScanner [['c']]] sources disks
  have items : scanFrom disks [treeScanner [['c']]] 0 sources = ([.file ['a'], .file ['b']], none) := by
    decide +kernel
  refine ⟨fun call => (answers call).trans (by rw [items]; rfl), unread others ?_⟩
  intro call source member
  obtain ⟨earlier, later, -, split, accepted, -⟩ := read call source member
  have inside : source ∈ sources := by simp [split]
  by_cases first : call = 0
  · simp only [disks, others, if_pos first]
  · simp only [disks, others, if_neg first]
    simp only [sources, List.mem_cons, List.not_mem_nil, or_false] at inside
    rcases inside with rfl | rfl | rfl
    · exact absurd accepted (by decide)
    · rfl
    · rfl

end EventStream

end BranchCatalog
