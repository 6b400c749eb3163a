import BranchCatalog.Proofs.Command.Steps
import BranchCatalog.Proofs.Disk.Writing
import BranchCatalog.Proofs.Text.Utf8
import BranchCatalog.Proofs.Toml.Document

namespace BranchCatalog

open Toml (KeyLine ReadsBack)

namespace Settings

section Lines

variable {Value : Type}

def lineOf (key : String) (write : Value → Text) (value : Value → Toml.Value) (setting : Option Value) :
    List KeyLine :=
  setting.toList.map fun given => ⟨key.toList, write given, value given⟩

/-- The line of a setting is what is written for it. -/
theorem flatMap_lineOf (key : String) (write : Value → Text) (value : Value → Toml.Value)
    (setting : Option Value) :
    (lineOf key write value setting).flatMap KeyLine.text = writeSetting key write setting := by
  cases setting <;> simp [lineOf, writeSetting, KeyLine.text]

def lines (settings : Settings) : List KeyLine :=
  lineOf "database" Toml.writeQuoted .text settings.database ++
    lineOf "url_template" Toml.writeQuoted .text settings.urlTemplate ++
    lineOf "csv" Toml.writeQuoted .text settings.csv ++
    lineOf "html" Toml.writeQuoted .text settings.html ++
    lineOf "extensions" writeTexts (fun texts => .list (texts.map .text)) settings.extensions ++
    lineOf "exclude" writeTexts (fun texts => .list (texts.map .text)) settings.exclude ++
    lineOf "quiet" writeBoolean .boolean settings.quiet

theorem written_eq (settings : Settings) : settings.written = settings.lines.flatMap KeyLine.text := by
  simp only [written, lines, List.flatMap_append, flatMap_lineOf]

/-- A list of texts is read back, on one line or on several. -/
theorem readsBack_writeTexts (depth : Nat) (texts : List Text) :
    ReadsBack (depth + 1) (writeTexts texts) (.list (texts.map .text)) := by
  unfold writeTexts
  split
  · exact Toml.readsBack_empty depth
  · exact Toml.readsBack_one depth _
  · exact Toml.readsBack_itemLines depth texts

theorem readsBack_writeBoolean (depth : Nat) (value : Bool) :
    ReadsBack depth (writeBoolean value) (.boolean value) := by
  cases value with
  | true => exact Toml.readsBack_true depth
  | false => exact Toml.readsBack_false depth

theorem isReadable_of_mem_lineOf {key : String} {write : Value → Text} {value : Value → Toml.Value}
    {setting : Option Value} (nonempty : key.toList ≠ [])
    (bare : ∀ char ∈ key.toList, Toml.isKeyChar char = true)
    (reads : ∀ given, ReadsBack Toml.deepest (write given) (value given)) :
    ∀ line ∈ lineOf key write value setting, line.IsReadable := by
  intro line member
  obtain ⟨given, -, rfl⟩ := List.mem_map.mp member
  exact ⟨nonempty, bare, reads given⟩

/-- All lines of written settings can be read. -/
theorem isReadable_of_mem_lines (settings : Settings) : ∀ line ∈ settings.lines, line.IsReadable := by
  have text := Toml.readsBack_writeQuoted Toml.deepest
  have texts : ∀ texts, ReadsBack Toml.deepest (writeTexts texts) (.list (texts.map .text)) :=
    readsBack_writeTexts 78
  have boolean := readsBack_writeBoolean Toml.deepest
  simp only [lines, List.forall_mem_append]
  refine ⟨⟨⟨⟨⟨⟨?_, ?_⟩, ?_⟩, ?_⟩, ?_⟩, ?_⟩, ?_⟩
  all_goals exact isReadable_of_mem_lineOf (by decide) (List.all_eq_true.mp (by decide)) (by assumption)

theorem keys_lineOf_sublist (key : String) (write : Value → Text) (value : Value → Toml.Value)
    (setting : Option Value) :
    ((lineOf key write value setting).map KeyLine.key).Sublist [key.toList] := by
  cases setting with
  | none => exact List.nil_sublist _
  | some given => exact List.Sublist.refl _

/-- Each key is written at most once, in the order of the settings. -/
theorem nodup_keys (settings : Settings) : (settings.lines.map KeyLine.key).Nodup := by
  have distinct : (["database".toList] ++ ["url_template".toList] ++ ["csv".toList] ++ ["html".toList] ++
      ["extensions".toList] ++ ["exclude".toList] ++ ["quiet".toList]).Nodup := by decide
  refine List.Sublist.nodup ?_ distinct
  simp only [lines, List.map_append]
  exact (((((keys_lineOf_sublist ..).append (keys_lineOf_sublist ..)).append
    (keys_lineOf_sublist ..)).append (keys_lineOf_sublist ..)).append
    (keys_lineOf_sublist ..)).append (keys_lineOf_sublist ..) |>.append (keys_lineOf_sublist ..)

/-- A key is found on the line of its own setting only. -/
theorem lookup_lineOf (wanted : Text) (key : String) (write : Value → Text) (value : Value → Toml.Value)
    (setting : Option Value) :
    List.lookup wanted ((lineOf key write value setting).map KeyLine.entry) =
      if wanted = key.toList then setting.map fun given => .value (value given) else none := by
  cases setting with
  | none => simp [lineOf]
  | some given =>
      by_cases same : wanted = key.toList
      · simp [lineOf, KeyLine.entry, same]
      · simp [lineOf, KeyLine.entry, same, List.lookup_cons, beq_false_of_ne same]

end Lines

section Reading

variable {Value : Type}

/-- A setting is read as it was given, or as unset. -/
theorem mapM_read {read : Toml.Item → Option Value} {value : Value → Toml.Value}
    (reads : ∀ given, read (.value (value given)) = some given) (setting : Option Value) :
    (setting.map fun given => Toml.Item.value (value given)).mapM read = some setting := by
  cases setting with
  | none => rfl
  | some given =>
      show (read (.value (value given))).map some = some (some given)
      rw [reads]
      rfl

theorem textsOf?_texts (texts : List Text) : textsOf? (.value (.list (texts.map .text))) = some texts := by
  rw [textsOf?, List.mapM_map]
  show texts.mapM pure = some texts
  rw [List.mapM_pure, List.map_id']
  rfl

/-- The lines of some settings are read as these settings. -/
theorem ofEntries?_lines (settings : Settings) :
    ofEntries? (settings.lines.map KeyLine.entry) = some settings := by
  have text (setting : Option Text) :
      (setting.map fun given => Toml.Item.value (.text given)).mapM textOf? = some setting :=
    mapM_read (fun _ => rfl) setting
  have texts (setting : Option (List Text)) :
      (setting.map fun given => Toml.Item.value (.list (given.map .text))).mapM textsOf? = some setting :=
    mapM_read textsOf?_texts setting
  have boolean (setting : Option Bool) :
      (setting.map fun given => Toml.Item.value (.boolean given)).mapM booleanOf? = some setting :=
    mapM_read (fun _ => rfl) setting
  simp [ofEntries?, setting?, lines, List.lookup_append, lookup_lineOf, text, texts, boolean]

/-- The document of some settings is read as these settings. -/
theorem readDocument_written (settings : Settings) :
    (Toml.readDocument settings.written).bind ofEntries? = some settings := by
  rw [written_eq, KeyLine.readDocument_lines (isReadable_of_mem_lines settings) (nodup_keys settings)]
  exact ofEntries?_lines settings

end Reading

section Storing

variable {disk : Disk} {path : Path}

/-- What can be written is there afterwards. -/
theorem pathExists_of_read {content : List UInt8} (found : disk.read path = .ok content) :
    disk.pathExists path = true := by
  obtain ⟨entry, present, -⟩ := bind_eq_ok_iff.mp found
  simp [Disk.pathExists, present, Except.toBool]

/-- Settings are loaded from a path where their document is read. -/
theorem load_of_read {settings : Settings}
    (found : disk.read path = .ok (Text.encodeUtf8 settings.written)) :
    load disk path = .ok (some settings) := by
  rw [load, if_pos (pathExists_of_read found), found]
  simp only [Text.decodeUtf8?_encodeUtf8, readDocument_written]

/-- Where something can be written, anything can. -/
theorem exists_write_with {content : List UInt8} {written : Disk}
    (succeeded : disk.write path content = .ok written) (other : List UInt8) :
    ∃ stored, disk.write path other = .ok stored := by
  obtain ⟨place, located, free, noSpecial, -⟩ := Disk.write_eq_ok_iff.mp succeeded
  exact ⟨_, Disk.write_eq_ok_iff.mpr ⟨place, located, free, noSpecial, rfl⟩⟩

/-- Settings are stored when nothing stands in the way and the file can be written. -/
theorem store_of_write {settings : Settings} {force : Bool} {stored : Disk}
    (free : force = true ∨ disk.pathExists path = false)
    (written : disk.write path (Text.encodeUtf8 settings.written) = .ok stored) :
    settings.store disk path force = .ok stored := by
  have allowed : (disk.pathExists path && !force) = false := by
    rcases free with rfl | absent
    · simp
    · simp [absent]
  simp only [store, allowed, written]
  rfl

/-- Without force, settings are not stored over anything. -/
theorem store_of_pathExists (settings : Settings) (present : disk.pathExists path = true) :
    settings.store disk path false = .error (.alreadyThere path) := by
  simp [store, present]

/-- The command that stores the first settings does nothing when something stands in the way. -/
theorem leads_init_of_pathExists (present : disk.pathExists path = true) :
    Action.Leads (Action.init path false) disk fun answer left =>
      answer = .error (.settings (.alreadyThere path)) ∧ left = disk := by
  have refused := store_of_pathExists starter present
  refine Action.leads_onDisk_bind (fun fault left ran => ?_) (fun value left ran => ?_)
  · simp only [refused] at ran
    obtain ⟨same, rfl⟩ := Prod.mk.inj ran
    exact ⟨congrArg Except.error (Except.error.inj same).symm, rfl⟩
  · simp only [refused] at ran
    cases (Prod.mk.inj ran).1

/-- Settings that are stored at a path which can be written are loaded from there as they were. Without force
nothing is stored over what exists already, and the disk stays as it is. -/
theorem load_of_store (settings : Settings) (disk : Disk) (path : Path) :
    (∀ force content written, disk.write path content = .ok written →
      (force = true ∨ disk.pathExists path = false) →
        ∃ stored, settings.store disk path force = .ok stored ∧ load stored path = .ok (some settings)) ∧
    (disk.pathExists path = true →
      settings.store disk path false = .error (.alreadyThere path) ∧
        Action.Leads (Action.init path false) disk fun answer left =>
          answer = .error (.settings (.alreadyThere path)) ∧ left = disk) := by
  refine ⟨fun force content written succeeded free => ?_, fun present => ?_⟩
  · obtain ⟨stored, again⟩ := exists_write_with succeeded (Text.encodeUtf8 settings.written)
    exact ⟨stored, store_of_write free again, load_of_read (Disk.read_of_write again)⟩
  · exact ⟨store_of_pathExists settings present, leads_init_of_pathExists present⟩

/-- Settings with quotes of both kinds, three in a row, a backslash, a control character, a line feed and an
empty list are stored in a new file, and not over it again. -/
theorem load_of_store_of_quotes :
    let settings : Settings := { unset with
      database := some "'\"\"\"\\".toList, csv := some "\n'''\x07\"\"\"\"".toList,
      extensions := some [], exclude := some ["'".toList, "''\n\\".toList], quiet := some true }
    let path : Path := "c.toml".toList
    ∃ stored, settings.store .empty path false = .ok stored ∧ load stored path = .ok (some settings) ∧
      settings.store stored path false = .error (.alreadyThere path) := by
  intro settings path
  have written : Disk.empty.write path [] = .ok (Disk.empty.put [path] (.file [])) := rfl
  obtain ⟨stored, kept, loaded⟩ :=
    (load_of_store settings .empty path).1 false [] _ written (Or.inr rfl)
  have present : stored.pathExists path = true := by
    by_contra absent
    simp [load, absent] at loaded
  exact ⟨stored, kept, loaded, ((load_of_store settings stored path).2 present).1⟩

end Storing

end Settings

end BranchCatalog
