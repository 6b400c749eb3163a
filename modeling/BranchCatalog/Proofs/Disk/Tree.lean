import BranchCatalog.Proofs.Disk.Writing

namespace BranchCatalog.Disk

/-- A disk is a tree when whatever stands somewhere stands in a directory, and its working directory is
there. -/
structure IsTree (disk : Disk) : Prop where
  parents : ∀ place, disk.entryAt? place ≠ none → disk.entryAt? place.dropLast = some .directory
  home : disk.entryAt? disk.workingDirectory = some .directory

/-- A disk is made from another one when it has more directories, where nothing stood before, and is the same
otherwise. -/
structure MadeFrom (disk made : Disk) : Prop where
  entries : ∀ place, made.entryAt? place = disk.entryAt? place ∨
    disk.entryAt? place = none ∧ made.entryAt? place = some .directory
  home : made.workingDirectory = disk.workingDirectory
  tree : disk.IsTree → made.IsTree

variable {disk made : Disk} {path : Path}

theorem MadeFrom.refl (disk : Disk) : disk.MadeFrom disk :=
  ⟨fun _ => Or.inl rfl, rfl, id⟩

/-- Directories that are made one after another are made together. -/
theorem MadeFrom.trans {other : Disk} (first : disk.MadeFrom made) (second : made.MadeFrom other) :
    disk.MadeFrom other where
  entries place := by
    rcases second.entries place with same | ⟨free, directory⟩
    · rw [same]
      exact first.entries place
    · rcases first.entries place with same | ⟨-, stands⟩
      · exact Or.inr ⟨same.symm.trans free, directory⟩
      · rw [free] at stands
        cases stands
  home := second.home.trans first.home
  tree tree := second.tree (first.tree tree)

/-- Files stay where they are, and no new ones appear. -/
theorem MadeFrom.file_iff (derived : disk.MadeFrom made) {place : Route} {content : List UInt8} :
    made.entryAt? place = some (.file content) ↔ disk.entryAt? place = some (.file content) := by
  rcases derived.entries place with same | ⟨free, directory⟩
  · rw [same]
  · simp [free, directory]

/-- In a tree, one step from a directory to where nothing stands is a step down. -/
theorem IsTree.step_eq_append (tree : disk.IsTree) {above : Route} {last : Text}
    (directory : disk.entryAt? above = some .directory) (free : disk.entryAt? (step above last) = none) :
    step above last = above ++ [last] := by
  unfold step at free ⊢
  split at free
  · rw [directory] at free
    cases free
  · next speaks =>
      split at free
      · rw [tree.parents above (by simp [directory])] at free
        cases free
      · next down => rw [if_neg speaks, if_neg down]

theorem isTree_empty : empty.IsTree := by
  refine ⟨fun place present => ?_, entryAt?_root _⟩
  by_cases root : place = []
  · rw [root]
    exact entryAt?_root _
  · simp [entryAt?, root, empty] at present

/-- A tree stays one when something is put into a directory, but not in the place of another directory. -/
theorem IsTree.put {place : Route} (tree : disk.IsTree) (other : disk.entryAt? place ≠ some .directory)
    (above : disk.entryAt? place.dropLast = some .directory) (entry : Entry) :
    (disk.put place entry).IsTree := by
  have below : place ≠ [] := disk.ne_root other
  have stays {directory : Route} (stands : disk.entryAt? directory = some .directory) :
      (disk.put place entry).entryAt? directory = some .directory := by
    have apart : directory ≠ place := by
      rintro rfl
      exact other stands
    rw [entryAt?_put _ _ _ _ below, if_neg apart, stands]
  refine ⟨?_, stays tree.home⟩
  intro spot present
  rw [entryAt?_put _ _ _ _ below] at present
  split at present
  · next same => exact same ▸ stays above
  · exact stays (tree.parents spot present)

theorem madeFrom_of_makeDirectory (succeeded : disk.makeDirectory path = .ok made) :
    disk.MadeFrom made := by
  obtain ⟨-, first, last, ends, above, -, -, -, directory, free, rfl⟩ := exists_of_makeDirectory succeeded
  have below : step above last ≠ [] := disk.ne_root (by simp [free])
  refine ⟨?_, rfl, ?_⟩
  · intro place
    rw [entryAt?_put _ _ _ _ below]
    split
    · next same => exact Or.inr ⟨same ▸ free, rfl⟩
    · exact Or.inl rfl
  · intro tree
    refine tree.put (by simp [free]) ?_ _
    rw [tree.step_eq_append directory free, List.dropLast_concat]
    exact directory

theorem madeFrom_makeChain (disk : Disk) (paths : List Path) :
    disk.MadeFrom (disk.makeChain paths).2 := by
  induction paths generalizing disk with
  | nil => exact .refl disk
  | cons path above inductionHypothesis =>
      rw [makeChain]
      split
      · exact .refl disk
      · split
        · next once => exact madeFrom_of_makeDirectory once
        · have higher := inductionHypothesis disk
          split
          · next failed =>
              rw [failed] at higher
              exact higher
          · next made =>
              rw [made] at higher
              split
              · next twice => exact higher.trans (madeFrom_of_makeDirectory twice)
              · exact higher
        · exact .refl disk

/-- Making the directory for a file makes directories at most, also when it fails. -/
theorem madeFrom_makeParent (disk : Disk) (path : Path) : disk.MadeFrom (disk.makeParent path).2 := by
  unfold makeParent
  split
  · split
    · exact .refl disk
    · exact madeFrom_makeChain disk _
  · exact .refl disk

section Content

variable {place : Route} {old : List UInt8} (stands : disk.entryAt? place = some (.file old))
  (new : List UInt8)
include stands

/-- A file with another content is in the way of the same paths. -/
theorem follow_put_file (start : Route) (pieces : List Text) :
    (disk.put place (.file new)).follow start pieces = disk.follow start pieces := by
  have below : place ≠ [] := disk.ne_root (by simp [stands])
  induction pieces generalizing start with
  | nil => rfl
  | cons piece pieces inductionHypothesis =>
      rw [follow, follow, entryAt?_put _ _ _ _ below]
      by_cases same : start = place
      · rw [if_pos same, same, stands]
      · rw [if_neg same, inductionHypothesis]

/-- The content of a file does not matter to where a path leads. -/
theorem locate_put_file (path : Path) :
    (disk.put place (.file new)).locate path = disk.locate path := by
  have start : (disk.put place (.file new)).startOf path = disk.startOf path := rfl
  rw [locate, locate, start, follow_put_file stands]

/-- The content of a file matters only to paths that lead to the file. -/
theorem read_put_file {path : Path} (elsewhere : disk.locate path ≠ .ok place) :
    (disk.put place (.file new)).read path = disk.read path := by
  have below : place ≠ [] := disk.ne_root (by simp [stands])
  have same : (disk.put place (.file new)).lookUp path = disk.lookUp path := by
    rw [lookUp, lookUp, locate_put_file stands]
    cases located : disk.locate path with
    | error fault => rfl
    | ok other =>
        have apart : other ≠ place := fun same => elsewhere (same ▸ located)
        simp only [bind, Except.bind, entryAt?_put _ _ _ _ below, if_neg apart]
  rw [read, read, same]

end Content

end BranchCatalog.Disk
