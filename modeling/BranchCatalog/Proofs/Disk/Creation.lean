import BranchCatalog.Proofs.Disk.Companion
import BranchCatalog.Proofs.Disk.Parent

namespace BranchCatalog.Disk

variable {disk made : Disk} {path : Path}

/-- All of a path but its last step leads to something. -/
def HasParent (disk : Disk) (path : Path) : Prop :=
  ∃ first rest place, Text.split '/' path = first ++ rest ∧ Path.meaning rest ≤ 1 ∧
    disk.follow (disk.startOf path) first = .ok place ∧ disk.entryAt? place ≠ none

/-- A path leads to a place when its pieces can be followed from where it starts. -/
theorem locate_eq_ok_iff {place : Route} :
    disk.locate path = .ok place ↔
      path ≠ [] ∧ disk.follow (disk.startOf path) (Text.split '/' path) = .ok place := by
  by_cases empty : path = []
  · simp [locate, empty]
  · simp [locate, empty]

/-- A path leads to an entry when the entry stands at its place. -/
theorem lookUp_eq_ok_iff {entry : Entry} :
    disk.lookUp path = .ok entry ↔
      ∃ place, disk.locate path = .ok place ∧ disk.entryAt? place = some entry := by
  rw [lookUp, bind_eq_ok_iff]
  refine exists_congr fun place => and_congr_right fun _ => ?_
  cases disk.entryAt? place with
  | none => exact iff_of_false throw_ne_ok nofun
  | some other =>
      rw [pure_eq_ok_iff, Option.some.injEq]
      exact eq_comm

/-- Pieces in sequence lead on from where the first of them lead. -/
theorem goal_append (place : Route) (first second : List Text) :
    goal place (first ++ second) = goal (goal place first) second :=
  List.foldl_append

/-- When all of a path but its last step leads to something and still nothing is found, then nothing stands
where its text leads. -/
theorem HasParent.entryAt?_goal (parent : disk.HasParent path)
    (missing : disk.follow (disk.startOf path) (Text.split '/' path) = .error .notFound) :
    disk.entryAt? (goal (disk.startOf path) (Text.split '/' path)) = none := by
  obtain ⟨first, rest, place, split, short, found, present⟩ := parent
  rw [split, follow_append, found] at missing
  rw [split, goal_append, ← eq_goal_of_follow found]
  exact entryAt?_goal_of_follow present short missing

theorem startOf_eq {other : Path} (same : Path.isAbsolute other = Path.isAbsolute path) :
    disk.startOf other = disk.startOf path := by
  rw [startOf, startOf, same]

/-- A path has a parent as soon as the path above it leads to something. -/
theorem hasParent_of_lookUp {above : Path} {entry : Entry} (nonempty : path ≠ [])
    (parent : Path.parent? path = some above) (found : disk.lookUp above = .ok entry) :
    disk.HasParent path := by
  obtain ⟨place, located, stands⟩ := lookUp_eq_ok_iff.mp found
  obtain ⟨aboveNonempty, followed⟩ := locate_eq_ok_iff.mp located
  have present : disk.entryAt? place ≠ none := by simp [stands]
  cases absolute : Path.isAbsolute path with
  | true =>
      obtain ⟨alike, first, rest, split, short, rfl | rfl⟩ :=
        Path.split_of_absolute_parent absolute parent
      · refine ⟨[], rest, [], split, short, ?_, by simp [entryAt?_root]⟩
        rw [startOf, absolute]
        rfl
      · rw [startOf_eq (alike.trans absolute.symm)] at followed
        exact ⟨_, rest, place, split, short, followed, present⟩
  | false =>
      obtain ⟨first, rest, split, short, ⟨-, rfl⟩ | ⟨rfl, alike⟩⟩ :=
        Path.split_of_relative_parent absolute nonempty parent
      · contradiction
      · rw [startOf_eq (alike.trans absolute.symm)] at followed
        exact ⟨_, rest, place, split, short, followed, present⟩

/-- The empty pieces at the end of a path have no meaning. -/
theorem exists_empty_ends (pieces : List Text) :
    ∃ ends, pieces = (pieces.reverse.dropWhile List.isEmpty).reverse ++ ends ∧
      Path.meaning ends = 0 := by
  refine ⟨(pieces.reverse.takeWhile List.isEmpty).reverse, ?_, ?_⟩
  · rw [← List.reverse_append, List.takeWhile_append_dropWhile, List.reverse_reverse]
  · refine List.countP_eq_zero.mpr fun piece member => ?_
    have empty := List.all_eq_true.mp List.all_takeWhile piece (List.mem_reverse.mp member)
    simp [Path.isVoid_of_isEmpty empty]

/-- A directory is made one step beyond a directory, where nothing stood. -/
theorem exists_of_makeDirectory (succeeded : disk.makeDirectory path = .ok made) :
    path ≠ [] ∧ ∃ first last ends above, Text.split '/' path = first ++ last :: ends ∧
      Path.meaning ends = 0 ∧ disk.follow (disk.startOf path) first = .ok above ∧
      disk.entryAt? above = some .directory ∧ disk.entryAt? (step above last) = none ∧
      made = disk.put (step above last) .directory := by
  unfold makeDirectory at succeeded
  split at succeeded
  · contradiction
  · next nonempty =>
      obtain ⟨ends, whole, meaningless⟩ := exists_empty_ends (Text.split '/' path)
      obtain ⟨above, followed, rest⟩ := bind_eq_ok_iff.mp succeeded
      refine ⟨by simpa using nonempty, ?_⟩
      split at rest
      · contradiction
      · next directory =>
          cases named : ((Text.split '/' path).reverse.dropWhile List.isEmpty).reverse.getLast? with
          | none =>
              -- a path of empty pieces leads to the directory itself, which is there already
              simp only [named, Option.map_none, Option.getD_none, directory] at rest
              contradiction
          | some last =>
              simp only [named, Option.map_some, Option.getD_some] at rest
              split at rest
              · contradiction
              · next free =>
                  obtain ⟨first, meant⟩ := List.getLast?_eq_some_iff.mp named
                  rw [meant, List.append_assoc] at whole
                  rw [meant, List.dropLast_concat] at followed
                  exact ⟨first, last, ends, above, whole, meaningless, followed, directory,
                    by simpa using free, pure_eq_ok_iff.mp rest⟩
      · contradiction

/-- A directory that has been made is found under its path. -/
theorem lookUp_of_makeDirectory (succeeded : disk.makeDirectory path = .ok made) :
    made.lookUp path = .ok .directory := by
  obtain ⟨nonempty, first, last, ends, above, whole, meaningless, followed, directory, free, rfl⟩ :=
    exists_of_makeDirectory succeeded
  have below : step above last ≠ [] := disk.ne_root (by simp [free])
  have stands : (disk.put (step above last) .directory).entryAt? (step above last) =
      some .directory := by
    rw [entryAt?_put _ _ _ _ below, if_pos rfl]
  have stays : (disk.put (step above last) .directory).entryAt? above = some .directory := by
    rw [entryAt?_put _ _ _ _ below, directory, ite_self]
  refine lookUp_eq_ok_iff.mpr ⟨_, locate_eq_ok_iff.mpr ⟨nonempty, ?_⟩, stands⟩
  rw [whole, follow_append]
  have again : (disk.put (step above last) .directory).follow (disk.startOf path) first = .ok above :=
    follow_put (by simp [free]) followed
  show ((disk.put _ _).follow (disk.startOf path) first).bind _ = _
  rw [again]
  show (disk.put _ _).follow above (last :: ends) = _
  rw [follow, stays]
  exact follow_of_meaningless stands meaningless

/-- Making a directory with those above it leaves something under its path. -/
theorem lookUp_of_makeChain {above : List Path} (nonempty : path ≠ [])
    (succeeded : disk.makeChain (path :: above) = (.ok (), made)) :
    made.lookUp path = .ok .directory := by
  have there {before : Disk} {fault : DiskFault}
      (kept : (before.madeUnless path fault, before) = (.ok (), made)) :
      made.lookUp path = .ok .directory := by
    obtain ⟨found, rfl⟩ := Prod.mk.inj kept
    unfold madeUnless isDirectory at found
    split at found
    · assumption
    · contradiction
  rw [makeChain, if_neg (by simpa using nonempty)] at succeeded
  split at succeeded
  · next once =>
      cases succeeded
      exact lookUp_of_makeDirectory once
  · split at succeeded
    · cases succeeded
    · split at succeeded
      · next twice =>
          cases succeeded
          exact lookUp_of_makeDirectory twice
      · exact there succeeded
  · exact there succeeded

/-- A path has a parent when it starts at a directory and has at most one step. -/
theorem hasParent_of_start (directory : disk.entryAt? (disk.startOf path) = some .directory)
    (short : Path.meaning (Text.split '/' path) ≤ 1) : disk.HasParent path :=
  ⟨[], Text.split '/' path, _, rfl, short, rfl, by simp [directory]⟩

/-- Once the directory for the file of a path has been made, the path has a parent. -/
theorem hasParent_of_makeParent (working : disk.entryAt? disk.workingDirectory = some .directory)
    (nonempty : path ≠ []) (succeeded : disk.makeParent path = (.ok (), made)) :
    made.HasParent path := by
  have start : disk.entryAt? (disk.startOf path) = some .directory := by
    unfold startOf
    split
    · exact disk.entryAt?_root
    · exact working
  unfold makeParent at succeeded
  split at succeeded
  · next above parent =>
      by_cases empty : above = []
      · rw [if_pos (Or.inl (by simp [empty]))] at succeeded
        cases succeeded
        exact hasParent_of_start start (Path.meaning_le_one_of_parent? nonempty (empty ▸ parent))
      · split at succeeded
        · next known =>
            cases succeeded
            have there : disk.pathExists above = true := known.resolve_left (by simpa using empty)
            cases found : disk.lookUp above with
            | ok entry => exact hasParent_of_lookUp nonempty parent found
            | error fault =>
                rw [pathExists, found] at there
                contradiction
        · exact hasParent_of_lookUp nonempty parent (lookUp_of_makeChain empty succeeded)
  · next none =>
      cases succeeded
      have meaningless := (Path.meaning_of_parent?_eq_none nonempty none).2
      exact hasParent_of_start start (by omega)

/-- The place of a store is where the text of its path leads. -/
theorem eq_goal_of_storePlace? {place : Route} (found : disk.storePlace? path = some place) :
    place = goal (disk.startOf path) (Text.split '/' path) := by
  obtain ⟨reached, steps, rest⟩ := Option.bind_eq_some_iff.mp found
  rw [← eq_goal_of_storeSteps steps]
  split at rest
  · contradiction
  · split at rest
    · exact (Option.some.inj rest).symm
    · exact (Option.some.inj rest).symm
    · contradiction

/-- What is opened where nothing stands is an empty store. -/
theorem store_of_openStore {opened : OpenStore} {after : Disk}
    (nothing : disk.entryAt? (goal (disk.startOf path) (Text.split '/' path)) = none)
    (succeeded : disk.openStore path = (.ok opened, after)) : opened.store = .empty := by
  unfold openStore at succeeded
  split at succeeded
  · cases succeeded
    rfl
  · split at succeeded
    · cases succeeded
    · next place found =>
        rw [eq_goal_of_storePlace? found, nothing] at succeeded
        rcases openEmpty_cases (disk.put (goal (disk.startOf path) (Text.split '/' path)) (.file [])) _ with
          ⟨cause, left, failed, -⟩ | ⟨swept, -, filled⟩
        · rw [failed] at succeeded
          cases succeeded
        · rw [filled] at succeeded
          cases succeeded
          rfl

/-- What can be removed stands at the place of its path and is no directory. -/
theorem removeFile_eq_ok_iff {after : Disk} :
    disk.removeFile path = .ok after ↔ ∃ place entry, disk.locate path = .ok place ∧
      disk.entryAt? place = some entry ∧ entry ≠ .directory ∧ after = disk.remove place := by
  rw [removeFile, bind_eq_ok_iff]
  refine exists_congr fun place => ?_
  rcases disk.entryAt? place with _ | _ | _ | _
  · simp [throw_ne_ok]
  · simp [pure_eq_ok_iff]
  · simp [throw_ne_ok]
  · simp [pure_eq_ok_iff]

/-- When no file is found to be removed, nothing stands where the text of the path leads. -/
theorem HasParent.entryAt?_of_removeFile (parent : disk.HasParent path) (nonempty : path ≠ [])
    (missing : disk.removeFile path = .error .notFound) :
    disk.entryAt? (goal (disk.startOf path) (Text.split '/' path)) = none := by
  have located : disk.locate path = disk.follow (disk.startOf path) (Text.split '/' path) := by
    rw [locate, if_neg (by simpa using nonempty)]
  rw [removeFile, located] at missing
  rcases bind_eq_error_iff.mp missing with unfound | ⟨place, followed, refused⟩
  · exact parent.entryAt?_goal unfound
  · rw [← eq_goal_of_follow followed]
    split at refused
    · assumption
    · cases refused
    · cases refused

/-- A store that is created at a path with a parent is empty. -/
theorem HasParent.store_of_createStore {opened : OpenStore} {after : Disk}
    (parent : disk.HasParent path) (nonempty : path ≠ [])
    (succeeded : disk.createStore path = (.ok opened, after)) : opened.store = .empty := by
  unfold createStore at succeeded
  split at succeeded
  · next removed removal =>
      obtain ⟨place, entry, located, stands, noDirectory, rfl⟩ := removeFile_eq_ok_iff.mp removal
      have below : place ≠ [] := disk.ne_root (by simpa [stands] using noDirectory)
      refine store_of_openStore ?_ succeeded
      show (disk.remove place).entryAt? (goal (disk.startOf path) _) = none
      rw [← eq_goal_of_follow (locate_eq_ok_iff.mp located).2, entryAt?_remove _ _ _ below,
        if_pos rfl]
  · next missing => exact store_of_openStore (parent.entryAt?_of_removeFile nonempty missing) succeeded
  · cases succeeded

/-- A store that is created after the directory for its file has been made is empty. -/
theorem store_of_createStore {opened : OpenStore} {after : Disk}
    (working : disk.entryAt? disk.workingDirectory = some .directory)
    (prepared : disk.makeParent path = (.ok (), made))
    (succeeded : made.createStore path = (.ok opened, after)) : opened.store = .empty := by
  by_cases empty : path = []
  · subst empty
    -- the empty path names no file, and its store lives only as long as it is open
    cases succeeded
    rfl
  · exact (hasParent_of_makeParent working empty prepared).store_of_createStore empty succeeded

end BranchCatalog.Disk
