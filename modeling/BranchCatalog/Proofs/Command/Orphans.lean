import BranchCatalog.Proofs.Command.Effects
import BranchCatalog.Proofs.Disk.Creation
import BranchCatalog.Proofs.Store.Calls

namespace BranchCatalog

/-- A disk whose working directory is there. -/
def Disk.IsAtHome (disk : Disk) : Prop :=
  disk.entryAt? disk.workingDirectory = some .directory

/-- A fault other than that rows have been found to be orphans. -/
def CommandFault.IsNotOrphans (fault : CommandFault) : Prop :=
  ∀ count, fault ≠ .orphans count

open BranchCatalog.Action

/-- A database that has been built anew has no orphans, and building it fails for other reasons. -/
theorem rebuild_without_orphans {disk left : Disk} (home : disk.IsAtHome) {registry : Registry}
    {sources : List Source} {database : Path} {answer : Except CommandFault Rebuilt}
    (ran : rebuild disk registry sources database = (answer, left)) :
    match answer with
    | .ok rebuilt => rebuilt.orphans = 0
    | .error fault => fault.IsNotOrphans := by
  unfold rebuild at ran
  rcases prepared : disk.makeParent database with ⟨_ | _, made⟩
  · rw [prepared] at ran
    cases ran
    exact nofun
  · rcases created : made.createStore database with ⟨_ | opened, after⟩
    · simp only [prepared, created] at ran
      cases ran
      exact nofun
    · simp only [prepared, created] at ran
      -- whatever stood in the old file, the load starts from an empty store
      have empty := Disk.store_of_createStore home prepared created
      have kept := Store.consistent_empty.load
        ((EventStream.start registry sources).takeAll after)
      rw [empty] at ran
      cases loaded : Store.load .empty ((EventStream.start registry sources).takeAll after) with
      | mk outcome store =>
          rw [loaded] at kept ran
          cases outcome with
          | error cause =>
              cases ran
              exact nofun
          | ok counts =>
              cases ran
              exact kept.tables.orphanCount_eq_zero

/-- A scan does not end because of orphan rows. -/
theorem scan_without_orphans (settings : Settings) (paths : List Path) (list database : Option Path)
    {session : Session} (home : session.disk.IsAtHome) (count : Nat) :
    ((scan settings paths list database).run.run session).1 ≠ .error (.orphans count) := by
  intro failed
  have ended := leads_scan settings paths list database session rfl
  rw [failed] at ended
  generalize ((scan settings paths list database).run.run session).2.disk = left at ended
  cases ended with
  | uncollected unknown => cases precedesLoad_of_collectSources unknown
  | unbuilt _ ran => exact rebuild_without_orphans home ran count rfl
  | orphans _ ran some => exact some (rebuild_without_orphans home ran)

/-- Whatever is called on an empty store, and whether it succeeds or fails, the store stays consistent and has
no orphans. A call that fails changes nothing, except that an event which a loader refuses may leave its file
behind. So a scan never ends because of orphan rows, as long as the working directory is there. -/
theorem store_stays_consistent :
    (∀ calls, let bench := Workbench.empty.run calls
      bench.store.Consistent ∧ bench.store.tables.orphanCount = 0 ∧
      (∀ call fault after, (∀ number event, call ≠ .apply number event) →
        bench.call call = (.error fault, after) → after = bench) ∧
      ∀ number event fault after, bench.call (.apply number event) = (.error fault, after) →
        after.store = bench.store ∨ after.store = (bench.store.insertFile event.filename).2) ∧
    ∀ settings paths list database session, session.disk.IsAtHome →
      ∀ count, ((scan settings paths list database).run.run session).1 ≠ .error (.orphans count) := by
  constructor
  · intro calls bench
    have consistent : bench.store.Consistent :=
      Workbench.consistent_run Store.consistent_empty calls
    exact ⟨consistent, consistent.tables.orphanCount_eq_zero,
      fun _ _ _ direct failed => Workbench.eq_of_call_error direct failed,
      fun _ _ _ _ failed => Workbench.store_of_apply_error failed⟩
  · exact fun settings paths list database session home =>
      scan_without_orphans settings paths list database home

/-- Inside a transaction calls with unknown ids, another `begin` and a load are refused, and a loader meets an
unknown tree; rolling back leaves the file from before. A scan replaces a damaged database. -/
theorem store_stays_consistent_over_refused_calls :
    let bench := Workbench.empty.run [.insertFile ['a'], .begin, .insertTree ⟨['t'], [], ['p'], 1, 3⟩,
      .begin, .insertBranch ⟨7, ['x'], [], ['v'], 1, 4⟩, .load [], .startLoader,
      .apply 0 (.branch ⟨['b'], 1⟩ ⟨['u'], ['y'], [], ['w']⟩)]
    let damaged : Tables := { Tables.empty with trees := ⟨[⟨1, ⟨['t'], [], ['p'], some 9, 3⟩⟩], 1⟩ }
    let disk := Disk.empty.put [['d', 'b']] (.file (Archive.write damaged))
    let session := Session.start disk .plain none
    bench.store.Consistent ∧
      bench.store.tables.files = ⟨[⟨1, ['a']⟩, ⟨2, ['b']⟩], 2⟩ ∧
      bench.call (.insertTree ⟨['u'], [], ['q'], 5, 6⟩) =
        (.error (.storage .danglingReference), bench) ∧
      (bench.call (.apply 0 (.branch ⟨['c'], 1⟩ ⟨['u'], ['y'], [], ['w']⟩))).2.store =
        (bench.store.insertFile ['c']).2 ∧
      (bench.call .rollBack).2.store = (Store.empty.insertFile ['a']).2 ∧
      ∀ count, ((scan .unset [['.']] none (some ['d', 'b'])).run.run session).1 ≠
        .error (.orphans count) := by
  intro bench damaged disk session
  obtain ⟨calls, scans⟩ := store_stays_consistent
  obtain ⟨consistent, -, direct, through⟩ := calls [.insertFile ['a'], .begin,
    .insertTree ⟨['t'], [], ['p'], 1, 3⟩, .begin, .insertBranch ⟨7, ['x'], [], ['v'], 1, 4⟩, .load [],
    .startLoader, .apply 0 (.branch ⟨['b'], 1⟩ ⟨['u'], ['y'], [], ['w']⟩)]
  have applied := through 0 (.branch ⟨['c'], 1⟩ ⟨['u'], ['y'], [], ['w']⟩) _ _ rfl
  refine ⟨consistent, rfl, ?_, applied.resolve_left (by decide), rfl, ?_⟩
  · exact Prod.ext rfl (direct (.insertTree ⟨['u'], [], ['q'], 5, 6⟩) _ _ nofun rfl)
  · exact scans .unset [['.']] none (some ['d', 'b']) session (Disk.entryAt?_root _)

end BranchCatalog
