/-
This file says what each command leads to: its answer and the disk that it leaves, by what it asks of the disk
on the way. The other files on commands start from here and never look at the printing again.
-/

import BranchCatalog.Proofs.Command.Steps

namespace BranchCatalog

/-- The sources that a list names; without a list there are none. -/
def listedSources (disk : Disk) (list : Option Path) : Except CommandFault (List Source) :=
  match list with
  | none => .ok []
  | some list => (readSourceList disk list).mapError .other

/-- The sources that the walk from a path finds. -/
def walkedSources (disk : Disk) (settings : Settings) (path : Path) : Except CommandFault (List Source) :=
  (walk disk path settings.excludes fun source =>
    (settings.registry.find? source).isSome).mapError (.walking path)

/-- Sources are collected from the list first, and then from each path in order. -/
theorem collectSources_eq (disk : Disk) (settings : Settings) (paths : List Path) (list : Option Path) :
    collectSources disk settings paths list = (do
      let listed ← listedSources disk list
      let found ← paths.mapM (walkedSources disk settings)
      return listed ++ found.flatten) := by
  cases list <;> rfl

/-- Holds for the faults with which a scan ends before it loads anything. -/
def CommandFault.precedesLoad : CommandFault → Bool
  | settings _ | nothingToScan | other _ | walking .. | noDirectory _ | creating .. => true
  | _ => false

/-- When the sources cannot be collected, nothing has been loaded yet. -/
theorem precedesLoad_of_collectSources {disk : Disk} {settings : Settings} {paths : List Path}
    {list : Option Path} {fault : CommandFault}
    (failed : collectSources disk settings paths list = .error fault) : fault.precedesLoad = true := by
  rw [collectSources_eq] at failed
  rcases bind_eq_error_iff.mp failed with unread | ⟨listed, -, stopped⟩
  · cases list with
    | none => cases unread
    | some list =>
        obtain ⟨cause, rfl⟩ := exists_of_mapError_eq_error unread
        rfl
  · rcases bind_eq_error_iff.mp stopped with unwalked | ⟨found, -, never⟩
    · obtain ⟨path, -, unwalked⟩ := exists_of_mapM_eq_error unwalked
      obtain ⟨cause, rfl⟩ := exists_of_mapError_eq_error unwalked
      rfl
    · cases never

namespace Action

variable {disk : Disk}

/-- The ways in which a scan ends: there is nothing to scan, its sources cannot be told, the database cannot
be built from them, what has been built has orphans, or all is well. -/
inductive ScanEnds (settings : Settings) (paths : List Path) (list database : Option Path) (disk : Disk) :
    Except CommandFault Unit → Disk → Prop where
  | nothing : paths = [] → list = none →
      ScanEnds settings paths list database disk (.error .nothingToScan) disk
  | uncollected {fault : CommandFault} : collectSources disk settings paths list = .error fault →
      ScanEnds settings paths list database disk (.error fault) disk
  | unbuilt {sources : List Source} {fault : CommandFault} {left : Disk} :
      collectSources disk settings paths list = .ok sources →
      rebuild disk settings.registry sources (database.getD settings.databasePath) =
        (.error fault, left) →
      ScanEnds settings paths list database disk (.error fault) left
  | orphans {sources : List Source} {rebuilt : Rebuilt} {left : Disk} :
      collectSources disk settings paths list = .ok sources →
      rebuild disk settings.registry sources (database.getD settings.databasePath) =
        (.ok rebuilt, left) → rebuilt.orphans ≠ 0 →
      ScanEnds settings paths list database disk (.error (.orphans rebuilt.orphans)) left
  | built {sources : List Source} {rebuilt : Rebuilt} {left : Disk} :
      collectSources disk settings paths list = .ok sources →
      rebuild disk settings.registry sources (database.getD settings.databasePath) =
        (.ok rebuilt, left) → rebuilt.orphans = 0 →
      ScanEnds settings paths list database disk (.ok ()) left

/-- A scan ends in one of its ways, whatever it prints. -/
theorem leads_scan (settings : Settings) (paths : List Path) (list database : Option Path) :
    Leads (scan settings paths list database) disk (ScanEnds settings paths list database disk) := by
  refine leads_guard ?_ fun _ => ?_
  · intro nothing
    obtain ⟨noPaths, noList⟩ := Bool.and_eq_true_iff.mp nothing
    exact .nothing (List.isEmpty_iff.mp noPaths) (Option.isNone_iff_eq_none.mp noList)
  refine leads_ask_bind (fun _ => .uncollected) fun sources collected => ?_
  iterate 3 refine leads_prints_bind (prints_tell _) ?_
  refine leads_onDisk_bind (fun _ _ => .unbuilt collected) fun rebuilt left built => ?_
  refine leads_prints_bind (prints_tellCounts _) ?_
  refine leads_prints_bind (prints_sectionTitle _) ?_
  iterate 2 refine leads_prints_bind (prints_tell _) ?_
  refine leads_when_prints (prints_warn _) ?_
  refine leads_guard (fun some => .orphans collected built some) fun none => ?_
  exact leads_of_prints (prints_tell _) (.built collected built (not_not.mp none))

/-- The ways in which an export ends, as far as the disk is concerned: nothing has happened, or the output has
been found to be another place than the database and the export has been carried out. -/
inductive ExportLeaves (database output : Path) (disk : Disk) : Disk → Prop where
  | untouched : ExportLeaves database output disk disk
  | exported {document : List ReportRow → Text} : checkDistinct disk database output = .ok () →
      ExportLeaves database output disk (withExisting disk database fun disk tables =>
        exportRows disk output tables document).2

/-- An export as records leaves what exports leave. -/
theorem leads_csv (settings : Settings) (database output : Option Path) :
    Leads (csv settings database output) disk fun _ left =>
      ExportLeaves (database.getD settings.databasePath) (settings.csvOutput output) disk left := by
  refine leads_ask_bind (fun _ _ => .untouched) fun _ distinct => ?_
  refine leads_onDisk_bind ?_ ?_
  · intro fault left ran
    obtain rfl := congrArg Prod.snd ran
    exact .exported distinct
  · intro rows left ran
    obtain rfl := congrArg Prod.snd ran
    exact leads_of_prints (prints_tellRows _ _) (.exported distinct)

/-- An export as a page leaves what exports leave. -/
theorem leads_html (settings : Settings) (database output : Option Path) (template : Option Text) :
    Leads (html settings database output template) disk fun _ left =>
      ExportLeaves (database.getD settings.databasePath) (settings.htmlOutput output) disk left := by
  refine leads_ask_bind (fun _ _ => .untouched) fun _ distinct => ?_
  refine leads_ask_bind (fun _ _ => .untouched) fun template _ => ?_
  refine leads_prints_bind (prints_tell _) ?_
  refine leads_onDisk_bind ?_ ?_
  · intro fault left ran
    obtain rfl := congrArg Prod.snd ran
    exact .exported distinct
  · intro rows left ran
    obtain rfl := congrArg Prod.snd ran
    exact leads_of_prints (prints_tellRows _ _) (.exported distinct)

/-- Without settings that can be loaded a command does nothing, and with them it does its work. -/
theorem leads_withSettings {invocation : Invocation} {work : Settings → Action Unit}
    {after : Except CommandFault Unit → Disk → Prop}
    (unloaded : ∀ cause, Settings.load disk invocation.settings = .error cause →
      after (.error (.settings cause)) disk)
    (loaded : ∀ settings, Settings.load disk invocation.settings = .ok settings →
      Leads (work (settings.getD .unset)) disk after) :
    Leads (invocation.withSettings work) disk after := by
  refine leads_ask_bind ?_ ?_
  · intro fault failed
    split at failed
    · next cause found =>
        cases failed
        exact unloaded cause found
    · cases failed
  · intro settings answered
    refine leads_prints_bind (prints_hush _) ?_
    split at answered
    · cases answered
    · next found =>
        cases answered
        exact loaded _ found

end Action

def Invocation.answer (invocation : Invocation) (session : Session) : Except CommandFault Unit :=
  (invocation.run.run.run session).1

/-- The program leaves the disk that the command of its arguments leaves, and its code tells whether the
command has failed. -/
theorem runProgram_of_leads (session : Session) {arguments : List Text} {invocation : Invocation}
    {after : Except CommandFault Unit → Disk → Prop} (spelled : Arguments.read arguments = .ok invocation)
    (leads : Action.Leads invocation.run session.disk after) :
    (runProgram arguments session).code = (if (invocation.answer session).isOk then 0 else 2) ∧
      after (invocation.answer session) (runProgram arguments session).session.disk := by
  have led := leads session rfl
  have whole : runProgram arguments session = invocation.run.outcome session := by
    simp only [runProgram, spelled]
  rw [whole, Action.outcome, Invocation.answer]
  split
  · next left ran =>
      rw [ran] at led ⊢
      exact ⟨rfl, led⟩
  · next fault left ran =>
      rw [ran] at led ⊢
      exact ⟨rfl, led⟩

end BranchCatalog
