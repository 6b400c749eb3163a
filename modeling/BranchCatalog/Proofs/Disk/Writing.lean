import BranchCatalog.Proofs.Disk.Creation

namespace BranchCatalog.Disk

variable {disk written : Disk} {path : Path} {content : List UInt8} {place : Route}

/-- A file can be written one step beyond a directory, under a path that does not end with a slash. -/
theorem locateNew_eq_ok_iff :
    disk.locateNew path = .ok place ↔ path ≠ [] ∧ ∃ first last above,
      Text.split '/' path = first ++ [last] ∧ last ≠ [] ∧
      disk.follow (disk.startOf path) first = .ok above ∧
      disk.entryAt? above = some .directory ∧ place = step above last := by
  constructor
  · intro located
    unfold locateNew at located
    split at located
    · contradiction
    · next nonempty =>
        obtain ⟨above, followed, rest⟩ := bind_eq_ok_iff.mp located
        refine ⟨by simpa using nonempty, ?_⟩
        obtain ⟨ends, whole, -⟩ := exists_empty_ends (Text.split '/' path)
        split at rest
        · contradiction
        · contradiction
        · next last directory named =>
            split at rest
            · contradiction
            · next unended =>
                have none : ends = [] := by
                  have sizes := congrArg List.length whole
                  rw [List.length_append] at sizes
                  exact List.eq_nil_of_length_eq_zero (by omega)
                obtain ⟨first, meant⟩ := List.getLast?_eq_some_iff.mp named
                rw [meant, none, List.append_nil] at whole
                rw [meant, List.dropLast_concat] at followed
                refine ⟨first, last, above, whole, ?_, followed, directory, pure_eq_ok_iff.mp rest⟩
                -- the pieces that are meant do not end with an empty one
                have front : (Text.split '/' path).reverse.dropWhile List.isEmpty =
                    last :: first.reverse := by
                  simpa using congrArg List.reverse meant
                have kept := List.head?_dropWhile_not List.isEmpty (Text.split '/' path).reverse
                simpa [front] using kept
        · contradiction
  · rintro ⟨nonempty, first, last, above, whole, filled, followed, directory, rfl⟩
    have meant : ((first ++ [last]).reverse.dropWhile List.isEmpty).reverse = first ++ [last] := by
      simp [filled]
    unfold locateNew
    rw [if_neg (by simpa using nonempty)]
    simp only [whole, meant, List.dropLast_concat, followed]
    refine bind_eq_ok_iff.mpr ⟨above, rfl, ?_⟩
    simp [directory, pure_eq_ok_iff]

/-- Writing puts a file at the place of its path, unless something else than a file stands there. -/
theorem write_eq_ok_iff :
    disk.write path content = .ok written ↔ ∃ place, disk.locateNew path = .ok place ∧
      disk.entryAt? place ≠ some .directory ∧ disk.entryAt? place ≠ some .special ∧
      written = disk.put place (.file content) := by
  rw [write, bind_eq_ok_iff]
  refine exists_congr fun place => and_congr_right fun _ => ?_
  rcases disk.entryAt? place with _ | _ | _ | _
  · simp [pure_eq_ok_iff]
  · simp [pure_eq_ok_iff]
  · simp [throw_ne_ok]
  · simp [throw_ne_ok]

/-- The directory above a file stays where it is when the file is written. -/
theorem locateNew_put (located : disk.locateNew path = .ok place)
    (other : disk.entryAt? place ≠ some .directory) (content : List UInt8) :
    (disk.put place (.file content)).locateNew path = .ok place := by
  obtain ⟨nonempty, first, last, above, whole, filled, followed, directory, rfl⟩ :=
    locateNew_eq_ok_iff.mp located
  have below : step above last ≠ [] := disk.ne_root other
  have apart : above ≠ step above last := by
    intro same
    exact other (same ▸ directory)
  have stays : (disk.put (step above last) (.file content)).entryAt? above = some .directory := by
    rw [entryAt?_put _ _ _ _ below, if_neg apart, directory]
  exact locateNew_eq_ok_iff.mpr
    ⟨nonempty, first, last, above, whole, filled, follow_put other followed, stays, rfl⟩

/-- The place where a file can be written is the one where its path is looked up. -/
theorem locate_of_locateNew (located : disk.locateNew path = .ok place) :
    disk.locate path = .ok place := by
  obtain ⟨nonempty, first, last, above, whole, -, followed, directory, rfl⟩ :=
    locateNew_eq_ok_iff.mp located
  refine locate_eq_ok_iff.mpr ⟨nonempty, ?_⟩
  rw [whole, follow_append, followed]
  show disk.follow above [last] = _
  rw [follow, directory]
  rfl

/-- What has been written to a file is read from it. -/
theorem read_of_write (succeeded : disk.write path content = .ok written) :
    written.read path = .ok content := by
  obtain ⟨place, located, other, -, rfl⟩ := write_eq_ok_iff.mp succeeded
  have stands : (disk.put place (.file content)).entryAt? place = some (.file content) := by
    rw [entryAt?_put _ _ _ _ (disk.ne_root other), if_pos rfl]
  have found := lookUp_eq_ok_iff.mpr
    ⟨place, locate_of_locateNew (locateNew_put located other content), stands⟩
  exact bind_eq_ok_iff.mpr ⟨.file content, found, rfl⟩

/-- A file that has been written can be written again. -/
theorem exists_write_of_write (succeeded : disk.write path content = .ok written)
    (more : List UInt8) : ∃ again, written.write path more = .ok again := by
  obtain ⟨place, located, other, -, rfl⟩ := write_eq_ok_iff.mp succeeded
  have stands : (disk.put place (.file content)).entryAt? place = some (.file content) := by
    rw [entryAt?_put _ _ _ _ (disk.ne_root other), if_pos rfl]
  exact ⟨_, write_eq_ok_iff.mpr
    ⟨place, locateNew_put located other content, by simp [stands], by simp [stands], rfl⟩⟩

end BranchCatalog.Disk
