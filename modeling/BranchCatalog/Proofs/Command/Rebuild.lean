/-
This file shows that a scan never leaves a mixture of old and new data: it ends with all files as they were,
without a database, with an empty database, or with one that holds what was loaded from the sources and nothing
else.
-/

import BranchCatalog.Proofs.Command.Orphans
import BranchCatalog.Proofs.Composition
import BranchCatalog.Proofs.Disk.Replacement

namespace BranchCatalog

/-- The rows of a table have the ids one, two, three and so on. -/
def Table.CountsFromOne {Row : Type} (table : Table Row) : Prop :=
  ∀ (index : Nat) stored, table.rows[index]? = some stored → stored.id = index + 1

/-- Rows that are put into an empty table are numbered from one. -/
theorem Table.countsFromOne_append {Row : Type} (rows : List Row) :
    ((Table.empty : Table Row).append rows).CountsFromOne := by
  intro index stored found
  obtain ⟨row, -, rfl⟩ : ∃ row, rows[index]? = some row ∧
      (⟨0 + 1 + index, row⟩ : Stored Row) = stored := by
    simpa [Table.append, Table.empty, List.getElem?_mapIdx] using found
  show (0 + 1 + index : Int) = index + 1
  omega

/-- All tables have the ids one, two, three and so on. -/
structure Tables.CountFromOne (tables : Tables) : Prop where
  files : tables.files.CountsFromOne
  trees : tables.trees.CountsFromOne
  branches : tables.branches.CountsFromOne
  comments : tables.comments.CountsFromOne
  assignments : tables.assignments.CountsFromOne

/-- All tables that events fill from nothing count from one. -/
theorem Tables.countFromOne_extended (events : List Event) : (Tables.empty.extended events).CountFromOne :=
  ⟨Table.countsFromOne_append _, Table.countsFromOne_append _, Table.countsFromOne_append _,
    Table.countsFromOne_append _, Table.countsFromOne_append _⟩

/-- Two disks have the same file at a place, or no file there. -/
def Disk.SameFile (disk left : Disk) (place : Route) : Prop :=
  ∀ content, left.entryAt? place = some (.file content) ↔ disk.entryAt? place = some (.file content)

/-- Two disks have the same files, except at a place and for companions of the place that one of the disks has
lost. -/
def Disk.KeepsOthers (disk : Disk) (place : Route) (left : Disk) : Prop :=
  ∀ other ≠ place, disk.SameFile left other ∨ IsCompanion place other ∧ left.entryAt? other = none

/-- There is no file at a place, or an empty one. -/
def Disk.HoldsNothingAt (disk : Disk) (place : Route) : Prop :=
  disk.entryAt? place = none ∨ disk.entryAt? place = some (.file [])

/-- What has been loaded into an empty store is what its tables hold, and they count from one; after a fault
the store is empty. -/
theorem catalogued_cases (disk : Disk) (registry : Registry) (sources : List Source) :
    (∃ fault, catalogued disk registry sources = (.error fault, .empty)) ∨
      ∃ counts tables, catalogued disk registry sources = (.ok counts, .ofTables tables) ∧
        tables.CountFromOne := by
  cases faulty : faultOf? (scanAll disk registry sources) with
  | some fault => exact Or.inl ⟨fault, catalogued_of_fault faulty⟩
  | none => exact Or.inr ⟨_, _, catalogued_of_accepted faulty, Tables.countFromOne_extended _⟩

/-- Sources are collected when they are those of the list, if there is one, and then those of a walk from each
path, in the order of the paths. -/
def Collected (disk : Disk) (settings : Settings) (paths : List Path) (list : Option Path)
    (sources : List Source) : Prop :=
  ∃ listed found,
    (match list with
      | none => listed = []
      | some list => readSourceList disk list = .ok listed) ∧
    List.Forall₂ (fun path walked => walk disk path settings.excludes
      (fun source => (settings.registry.find? source).isSome) = .ok walked) paths found ∧
    sources = listed ++ found.flatten

/-- What a scan collects is what is listed, and then what each path gives. -/
theorem collectSources_eq_ok_iff {disk : Disk} {settings : Settings} {paths : List Path} {list : Option Path}
    {sources : List Source} :
    collectSources disk settings paths list = .ok sources ↔ Collected disk settings paths list sources := by
  have read {listed : List Source} : listedSources disk list = .ok listed ↔ match list with
      | none => listed = []
      | some list => readSourceList disk list = .ok listed := by
    cases list with
    | none => exact Except.ok.injEq [] listed ▸ eq_comm
    | some list => exact mapError_eq_ok_iff
  rw [collectSources_eq, bind_eq_ok_iff]
  refine exists_congr fun listed => ?_
  rw [read, bind_eq_ok_iff, ← exists_and_left]
  refine exists_congr fun found => and_congr_right fun _ => ?_
  rw [mapM_eq_ok_iff_forall₂, pure_eq_ok_iff]
  simp only [walkedSources, mapError_eq_ok_iff]

section Rebuild

variable {disk made after left : Disk} {registry : Registry} {sources : List Source} {place : Route}

/-- The catalog depends on the disk only through the contents of its sources. -/
theorem catalogued_congr {other : Disk} (same : ∀ source ∈ sources, source.read other = source.read disk) :
    catalogued other registry sources = catalogued disk registry sources := by
  rw [catalogued, catalogued, EventStream.takeAll_start, EventStream.takeAll_start, scanAll_congr same]

/-- A file may be rewritten without a change of what is loaded from sources that are other files. -/
theorem catalogued_put_file {old : List UInt8} (stands : disk.entryAt? place = some (.file old))
    (new : List UInt8)
    (apart : ∀ source ∈ sources, (disk.put place (.file new)).locate source.path ≠ .ok place) :
    catalogued (disk.put place (.file new)) registry sources = catalogued disk registry sources := by
  refine catalogued_congr fun source member => ?_
  have elsewhere := apart source member
  rw [Disk.locate_put_file stands] at elsewhere
  rw [Source.read, Source.read, Disk.read_put_file stands new elsewhere]

/-- Making directories and leaving something else at a place changes no file but the one there and its
companions. -/
theorem Disk.MadeFrom.keepsOthers_of_leaves {here : Option Entry} (derived : disk.MadeFrom made)
    (leaves : made.Leaves place here left) : disk.KeepsOthers place left := by
  intro other elsewhere
  rcases leaves.others other elsewhere with same | gone
  · left
    intro content
    rw [same]
    exact derived.file_iff
  · exact Or.inr gone

/-- Writing to the place of the database keeps all other files. -/
theorem Disk.KeepsOthers.put (kept : disk.KeepsOthers place left) (below : place ≠ []) (entry : Entry) :
    disk.KeepsOthers place (left.put place entry) := by
  intro other elsewhere
  rw [Disk.SameFile, Disk.entryAt?_put _ _ _ _ below, if_neg elsewhere]
  exact kept other elsewhere

/-- Building a database touches no file, or it fails without a database, or it loads the sources into the empty
database that it has put in the place of the old one. It changes no more than this place and its companions. -/
theorem rebuild_stages (tree : disk.IsTree) {database : Path} (ordinary : isTransient database = false)
    {answer : Except CommandFault Rebuilt} (ran : rebuild disk registry sources database = (answer, left)) :
    (∃ fault, answer = .error fault ∧ fault.precedesLoad = true ∧
      ∀ place, disk.SameFile left place) ∨
    (∃ cause, answer = .error (.creating database cause) ∧ left.HoldsNothingAt (disk.target database) ∧
      disk.KeepsOthers (disk.target database) left) ∨
      ∃ emptied outcome store,
        emptied.entryAt? (disk.target database) = some (.file (Archive.write .empty)) ∧
        disk.KeepsOthers (disk.target database) emptied ∧
        catalogued emptied registry sources = (outcome, store) ∧
        answer = (match outcome with
          | .error cause => .error (.scanAborted cause)
          | .ok counts => .ok ⟨counts, store.tables.orphanCount⟩) ∧
        left = emptied.put (disk.target database) (.file (Archive.write store.committed)) := by
  have nonempty : database ≠ [] := by
    rintro rfl
    cases ordinary
  have derived := disk.madeFrom_makeParent database
  unfold rebuild at ran
  rcases prepared : disk.makeParent database with ⟨cause | _, made⟩
  · rw [prepared] at derived ran
    cases ran
    exact Or.inl ⟨_, rfl, rfl, fun place _ => derived.file_iff⟩
  · rw [prepared] at derived ran
    have parent := Disk.hasParent_of_makeParent tree.home nonempty prepared
    have target := Disk.madeFrom_target derived database
    rcases Disk.createStore_cases ordinary parent with
      ⟨fault, failed⟩ | ⟨cause, after, here, failed, nothing, leaves⟩ | ⟨emptied, created, leaves⟩
    · simp only [failed] at ran
      cases ran
      exact Or.inl ⟨_, rfl, rfl, fun place _ => derived.file_iff⟩
    · rw [target] at leaves
      simp only [failed] at ran
      cases ran
      refine Or.inr (Or.inl ⟨_, rfl, ?_, derived.keepsOthers_of_leaves leaves⟩)
      rw [Disk.HoldsNothingAt, leaves.here]
      exact nothing
    · rw [target] at created leaves
      simp only [created, Disk.closeStore, Disk.release] at ran
      obtain ⟨answered, written⟩ := Prod.mk.inj ran
      exact Or.inr (Or.inr ⟨emptied, _, _, leaves.here, derived.keepsOthers_of_leaves leaves, rfl,
        answered.symm, written.symm⟩)

/-- Building a database ends in one of four ways. Either no file has been touched, or there is no database, or
the new database is there: empty when its load has failed, and otherwise with what has been loaded. -/
theorem rebuild_cases (tree : disk.IsTree) {database : Path} (ordinary : isTransient database = false)
    {answer : Except CommandFault Rebuilt} (ran : rebuild disk registry sources database = (answer, left))
    (apart : ∀ source ∈ sources, left.locate source.path ≠ .ok (disk.target database)) :
    (∃ fault, answer = .error fault ∧ fault.precedesLoad = true ∧
      ∀ place, disk.SameFile left place) ∨
    (∃ cause, answer = .error (.creating database cause) ∧ left.HoldsNothingAt (disk.target database) ∧
      disk.KeepsOthers (disk.target database) left) ∨
    (∃ cause, answer = .error (.scanAborted cause) ∧ (catalogued left registry sources).1 = .error cause ∧
      left.tablesAt? (disk.target database) = some .empty ∧ disk.KeepsOthers (disk.target database) left) ∨
    ∃ rebuilt tables, answer = .ok rebuilt ∧
      catalogued left registry sources = (.ok rebuilt.counts, .ofTables tables) ∧ tables.CountFromOne ∧
      left.tablesAt? (disk.target database) = some tables ∧
      disk.KeepsOthers (disk.target database) left := by
  rcases rebuild_stages tree ordinary ran with untouched | unopened |
    ⟨emptied, outcome, store, stands, others, loaded, answered, rfl⟩
  · exact Or.inl untouched
  · exact Or.inr (Or.inl unopened)
  · have below : disk.target database ≠ [] := emptied.ne_root (by simp [stands])
    have again := @catalogued_put_file _ registry _ _ _ stands _ apart
    refine Or.inr (Or.inr ?_)
    rcases catalogued_cases emptied registry sources with
      ⟨cause, failed⟩ | ⟨counts, tables, built, counting⟩
    · rw [failed] at loaded again
      cases loaded
      exact Or.inl ⟨cause, answered, congrArg Prod.fst again, Disk.tablesAt?_put_write _ below _,
        others.put below _⟩
    · rw [built] at loaded again
      cases loaded
      exact Or.inr ⟨_, tables, answered, again, counting, Disk.tablesAt?_put_write _ below _,
        others.put below _⟩

end Rebuild

/-- Holds for the paths that name a file by their text: those of transient stores do not, nor do URIs. -/
def isOrdinary (path : Path) : Bool :=
  !isTransient path && !"file:".toList.isPrefixOf path

theorem isTransient_of_isOrdinary {path : Path} (ordinary : isOrdinary path = true) :
    isTransient path = false := by
  obtain ⟨lasting, -⟩ := Bool.and_eq_true_iff.mp ordinary
  simpa using lasting

/-- What a scan works with: its settings, the path of its database and its sources. -/
structure ScanPlan where
  settings : Settings
  database : Path
  sources : List Source

/-- The plan of a scan has the settings that are loaded, the database that is asked for and all sources that
are collected. -/
structure ScanPlan.IsFor (plan : ScanPlan) (invocation : Invocation) (disk : Disk) : Prop where
  loaded : ∃ settings, Settings.load disk invocation.settings = .ok settings ∧
    plan.settings = settings.getD .unset
  asked : ∃ paths list database, invocation.command = .scan paths list database ∧
    plan.database = database.getD plan.settings.databasePath ∧
    Collected disk plan.settings paths list plan.sources

/-- A plan is sensible when the path of its database is ordinary, and no source leads to the database on the
disk that the scan leaves. -/
structure ScanPlan.IsSensible (plan : ScanPlan) (disk left : Disk) : Prop where
  ordinary : isOrdinary plan.database = true
  apart : ∀ source ∈ plan.sources, left.locate source.path ≠ .ok (disk.target plan.database)

/-- The ways in which a scan ends: it has touched nothing, it has removed the database, it has emptied the
database, or it has built the database anew. -/
inductive ScanEnding where
  | untouched
  | removed
  | emptied
  | rebuilt
  deriving DecidableEq, Repr

/-- What an ending means for the answer of a scan and for the disk that it leaves. -/
def ScanEnding.Describes (invocation : Invocation) (disk : Disk) (answer : Except CommandFault Unit)
    (left : Disk) : ScanEnding → Prop
  | untouched => ∃ fault, answer = .error fault ∧ fault.precedesLoad = true ∧
      ∀ place, disk.SameFile left place ∧ left.tablesAt? place = disk.tablesAt? place
  | removed => ∃ plan : ScanPlan, plan.IsFor invocation disk ∧ ∃ cause,
      answer = .error (.creating plan.database cause) ∧
      left.HoldsNothingAt (disk.target plan.database) ∧
      (∃ place, ¬ disk.SameFile left place) ∧ disk.KeepsOthers (disk.target plan.database) left
  | emptied => ∃ plan : ScanPlan, plan.IsFor invocation disk ∧ ∃ cause,
      answer = .error (.scanAborted cause) ∧
      (catalogued left plan.settings.registry plan.sources).1 = .error cause ∧
      left.tablesAt? (disk.target plan.database) = some .empty ∧
      disk.KeepsOthers (disk.target plan.database) left
  | rebuilt => ∃ plan : ScanPlan, plan.IsFor invocation disk ∧ ∃ counts tables,
      answer = .ok () ∧
      catalogued left plan.settings.registry plan.sources = (.ok counts, .ofTables tables) ∧
      tables.CountFromOne ∧ left.tablesAt? (disk.target plan.database) = some tables ∧
      disk.KeepsOthers (disk.target plan.database) left

/-- The ending that an answer tells of, together with whether all files are the same as before. -/
def ScanEnding.ofAnswer (unmoved : Bool) : Except CommandFault Unit → ScanEnding
  | .ok () => rebuilt
  | .error (.scanAborted _) => emptied
  | .error _ => if unmoved then untouched else removed

section Ending

variable {invocation : Invocation} {disk left : Disk} {answer : Except CommandFault Unit}

/-- The answer of a scan and the files that it leaves tell how it has ended. -/
theorem ScanEnding.eq_ofAnswer {ending : ScanEnding} {unmoved : Bool}
    (same : unmoved = true ↔ ∀ place, disk.SameFile left place)
    (ended : ending.Describes invocation disk answer left) : ending = ofAnswer unmoved answer := by
  cases ending with
  | untouched =>
      obtain ⟨fault, rfl, early, kept⟩ := ended
      obtain rfl := same.mpr fun place => (kept place).1
      cases fault <;> first | rfl | cases early
  | removed =>
      obtain ⟨plan, -, cause, rfl, -, ⟨place, changed⟩, -⟩ := ended
      obtain rfl : unmoved = false := Bool.eq_false_iff.mpr fun kept => changed (same.mp kept place)
      rfl
  | emptied =>
      obtain ⟨-, -, cause, rfl, -⟩ := ended
      rfl
  | rebuilt =>
      obtain ⟨-, -, counts, tables, rfl, -⟩ := ended
      rfl

theorem Disk.SameFile.tablesAt? {place : Route} (same : disk.SameFile left place) :
    left.tablesAt? place = disk.tablesAt? place := by
  refine Option.ext fun tables => ?_
  rw [Disk.tablesAt?_eq_some_iff, Disk.tablesAt?_eq_some_iff]
  exact exists_congr fun content => and_congr_left fun _ => same content

theorem Action.ScanEnds.exists_ending {settings : Settings} {paths : List Path} {list given : Option Path}
    (tree : disk.IsTree) (ended : Action.ScanEnds settings paths list given disk answer left)
    (plans : ∀ sources, Collected disk settings paths list sources →
      ScanPlan.IsFor ⟨settings, given.getD settings.databasePath, sources⟩ invocation disk)
    (sensible : ∀ plan : ScanPlan, plan.IsFor invocation disk → plan.IsSensible disk left) :
    ∃ ending : ScanEnding, ending.Describes invocation disk answer left := by
  have unmoved (place : Route) : disk.SameFile disk place ∧ disk.tablesAt? place = disk.tablesAt? place :=
    ⟨fun _ => Iff.rfl, rfl⟩
  cases ended with
  | nothing => exact ⟨.untouched, _, rfl, rfl, unmoved⟩
  | uncollected failed => exact ⟨.untouched, _, rfl, precedesLoad_of_collectSources failed, unmoved⟩
  | unbuilt collected ran =>
      have plan := plans _ (collectSources_eq_ok_iff.mp collected)
      obtain ⟨ordinary, apart⟩ := sensible _ plan
      rcases rebuild_cases tree (isTransient_of_isOrdinary ordinary) ran apart with
        ⟨fault, same, early, files⟩ | ⟨cause, same, nothing, others⟩ |
        ⟨cause, same, failed, empty, others⟩ | ⟨rebuilt, tables, never, -⟩
      · cases same
        exact ⟨.untouched, _, rfl, early, fun place => ⟨files place, (files place).tablesAt?⟩⟩
      · cases same
        by_cases unmoved : ∀ place, disk.SameFile left place
        · exact ⟨.untouched, _, rfl, rfl, fun place => ⟨unmoved place, (unmoved place).tablesAt?⟩⟩
        · exact ⟨.removed, _, plan, cause, rfl, nothing, not_forall.mp unmoved, others⟩
      · cases same
        exact ⟨.emptied, _, plan, cause, rfl, failed, empty, others⟩
      · cases never
  | orphans collected ran some => exact absurd (rebuild_without_orphans tree.home ran) some
  | built collected ran none =>
      have plan := plans _ (collectSources_eq_ok_iff.mp collected)
      obtain ⟨ordinary, apart⟩ := sensible _ plan
      rcases rebuild_cases tree (isTransient_of_isOrdinary ordinary) ran apart with
        ⟨fault, never, -⟩ | ⟨cause, never, -⟩ | ⟨cause, never, -⟩ |
        ⟨rebuilt, tables, -, loaded, counting, holds, others⟩
      · cases never
      · cases never
      · cases never
      · exact ⟨.rebuilt, _, plan, _, tables, rfl, loaded, counting, holds, others⟩

/-- A scan of paths succeeds when its sources can be collected and its database can be built from them. -/
theorem Action.ScanEnds.answer_eq_ok {settings : Settings} {paths : List Path} {list given : Option Path}
    {sources : List Source} {rebuilt : Rebuilt} {after : Disk}
    (ended : Action.ScanEnds settings paths list given disk answer left) (home : disk.IsAtHome)
    (some : paths ≠ []) (collected : collectSources disk settings paths list = .ok sources)
    (ran : rebuild disk settings.registry sources (given.getD settings.databasePath) =
      (.ok rebuilt, after)) :
    answer = .ok () := by
  cases ended with
  | nothing none => exact absurd none some
  | uncollected failed => cases collected.symm.trans failed
  | unbuilt gathered failed =>
      cases collected.symm.trans gathered
      cases ran.symm.trans failed
  | orphans _ again many => exact absurd (rebuild_without_orphans home again) many
  | built => rfl

/-- A scan without settings that can be loaded does nothing, and with them it ends as their scan does. -/
theorem leads_scan_run {paths : List Path} {list given : Option Path}
    (asked : invocation.command = .scan paths list given) :
    Action.Leads invocation.run disk fun answer left =>
      match Settings.load disk invocation.settings with
      | .error cause => answer = .error (.settings cause) ∧ left = disk
      | .ok settings => Action.ScanEnds (settings.getD .unset) paths list given disk answer left := by
  have whole : invocation.run =
      invocation.withSettings fun settings => Action.scan settings paths list given := by
    rw [Invocation.run, asked]
  rw [whole]
  refine Action.leads_withSettings ?_ ?_
  · intro cause unloaded
    rw [unloaded]
    exact ⟨rfl, rfl⟩
  · intro settings loaded
    rw [loaded]
    exact Action.leads_scan _ paths list given

/-- Every scan whose plan is sensible has an ending. -/
theorem leads_scan_ending (tree : disk.IsTree)
    (scans : ∃ paths list database, invocation.command = .scan paths list database) :
    Action.Leads invocation.run disk fun answer left =>
      (∀ plan : ScanPlan, plan.IsFor invocation disk → plan.IsSensible disk left) →
        ∃ ending : ScanEnding, ending.Describes invocation disk answer left := by
  obtain ⟨paths, list, database, asked⟩ := scans
  intro session same
  have ended := leads_scan_run asked session same
  cases loaded : Settings.load disk invocation.settings with
  | error cause =>
      rw [loaded] at ended
      obtain ⟨answered, unmoved⟩ := ended
      rw [answered, unmoved]
      exact fun _ => ⟨.untouched, _, rfl, rfl, fun place => ⟨fun _ => Iff.rfl, rfl⟩⟩
  | ok settings =>
      rw [loaded] at ended
      exact ended.exists_ending tree fun sources collected =>
        ⟨⟨settings, loaded, rfl⟩, paths, list, database, asked, rfl, collected⟩

end Ending

/-- A scan never leaves a mixture of old and new data. On a disk that is a tree, when the database is at an
ordinary path and none of the sources, a scan has exactly one ending: it has failed before it touched a file, it
has failed to open the new database and left none, it has failed later and the database is empty, or it has
succeeded and the database holds what is loaded from the sources into an empty store. Other files stay as they
were, except that companions of the database may be gone. -/
theorem scan_has_one_ending {arguments : List Text} {invocation : Invocation} {session : Session}
    (spelled : Arguments.read arguments = .ok invocation)
    (scans : ∃ paths list database, invocation.command = .scan paths list database)
    (tree : session.disk.IsTree)
    (sensible : ∀ plan : ScanPlan, plan.IsFor invocation session.disk →
      plan.IsSensible session.disk (runProgram arguments session).session.disk) :
    (runProgram arguments session).code = (if (invocation.answer session).isOk then 0 else 2) ∧
      ∃! ending : ScanEnding, ending.Describes invocation session.disk (invocation.answer session)
        (runProgram arguments session).session.disk := by
  obtain ⟨code, led⟩ := runProgram_of_leads session spelled (leads_scan_ending tree scans)
  obtain ⟨ending, ended⟩ := led sensible
  refine ⟨code, ending, ended, fun other described => ?_⟩
  classical
  have same := @decide_eq_true_iff
    (∀ place, session.disk.SameFile (runProgram arguments session).session.disk place) _
  exact (ScanEnding.eq_ofAnswer same described).trans (ScanEnding.eq_ofAnswer same ended).symm

/-- A scan that succeeds replaces the database of an earlier one. -/
theorem scan_has_one_ending_of_replaced :
    let old := { Tables.empty with files := Table.empty.insert ['o'] }
    let disk := (Disk.empty.put [['d']] (.file (Archive.write old))).put ["a.cc".toList]
      (.file (Text.encodeUtf8 "t->Branch(\"b\", &v);\n".toList))
    let invocation : Invocation := ⟨false, none, false, .scan ["/a.cc".toList] none (some ['d'])⟩
    let outcome := runProgram ["scan".toList, "-d".toList, "d".toList, "/a.cc".toList]
      (Session.start disk .plain none)
    disk.tablesAt? [['d']] = some old ∧ outcome.code = 0 ∧
      ScanEnding.rebuilt.Describes invocation disk (.ok ()) outcome.session.disk := by
  intro old disk invocation outcome
  let session := Session.start disk .plain none
  let source : Source := ⟨"/a.cc".toList, "/a.cc".toList⟩
  let emptied := (disk.remove [['d']]).put [['d']] (.file (Archive.write .empty))
  have collected : collectSources disk .unset ["/a.cc".toList] none = .ok [source] := by decide +kernel
  have holds : disk.tablesAt? [['d']] = some old :=
    Disk.tablesAt?_eq_some_iff.mpr ⟨_, rfl, Archive.isEmpty_write old, Archive.read?_write old⟩
  have tree : disk.IsTree := by
    have older := @Disk.IsTree.put _ [['d']] Disk.isTree_empty (by decide) rfl (.file (Archive.write old))
    exact older.put (by decide) rfl _
  have sensible : ∀ plan : ScanPlan, plan.IsFor invocation disk →
      plan.IsSensible disk outcome.session.disk := by
    rintro ⟨settings, database, sources⟩
      ⟨⟨found, loaded, same⟩, paths, list, given, asked, named, gathered⟩
    cases asked
    cases loaded
    cases same
    cases named
    cases collected.symm.trans (collectSources_eq_ok_iff.mpr gathered)
    refine ⟨rfl, fun source member => ?_⟩
    rw [List.mem_singleton.mp member]
    exact nofun
  have answered : invocation.answer session = .ok () := by
    have accepted : faultOf? (scanAll emptied Settings.unset.registry [source]) = none := by decide +kernel
    have built : ∃ rebuilt left,
        rebuild disk Settings.unset.registry [source] ['d'] = (.ok rebuilt, left) := by
      have loaded := catalogued_of_accepted accepted
      rw [catalogued] at loaded
      have prepared : disk.makeParent ['d'] = (.ok (), disk) := rfl
      have created : disk.createStore ['d'] = (.ok ⟨some [['d']], .empty, false⟩, emptied) := rfl
      simp only [rebuild, prepared, created, loaded]
      exact ⟨_, _, rfl⟩
    obtain ⟨rebuilt, left, ran⟩ := built
    have ended : Action.ScanEnds .unset ["/a.cc".toList] none (some ['d']) disk
        (invocation.answer session) _ :=
      @leads_scan_run invocation disk _ _ _ rfl session rfl
    exact ended.answer_eq_ok tree.home (by decide) collected ran
  obtain ⟨code, ending, ended, -⟩ :=
    @scan_has_one_ending _ invocation session rfl ⟨_, _, _, rfl⟩ tree sensible
  rw [answered] at code ended
  classical
  cases ScanEnding.eq_ofAnswer decide_eq_true_iff ended
  exact ⟨holds, code, ended⟩

/-- A scan removes a database that has a directory in the place of its journal, and then fails to open the new
one. -/
theorem scan_loses_database :
    let old := { Tables.empty with files := Table.empty.insert ['o'] }
    let disk := ((Disk.empty.put [['d']] (.file (Archive.write old))).put ["d-journal".toList] .directory).put
      ["a.cc".toList] (.file [])
    let outcome := runProgram ["scan".toList, "-d".toList, "d".toList, "a.cc".toList]
      (Session.start disk .plain none)
    disk.tablesAt? [['d']] = some old ∧ outcome.code = 2 ∧
      outcome.session.disk.tablesAt? [['d']] = none := by
  decide +kernel

end BranchCatalog
