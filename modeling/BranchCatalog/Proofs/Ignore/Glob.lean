import BranchCatalog.Ignore.GlobText
import Mathlib.Data.List.Infix

namespace BranchCatalog.Glob

variable {glob first second : Glob} {globs : List Glob} {path bytes rest : List UInt8} {text : Text}

section Matching

/-- A glob accepts a path when it can match all of its bytes. -/
theorem accepts_iff : glob.accepts path = true ↔ [] ∈ glob.rests path := by
  simp [accepts]

/-- A sequence of globs matches what they match one after another. -/
theorem mem_rests_sequence_iff :
    rest ∈ rests (sequence first second) bytes ↔ ∃ middle ∈ rests first bytes, rest ∈ rests second middle := by
  rw [rests, List.mem_eraseDups, List.mem_flatMap]

/-- Directories are left out up to one of the slashes. -/
theorem mem_tailsAfterSlash_iff :
    rest ∈ tailsAfterSlash bytes ↔ ∃ before, bytes = before ++ slash :: rest := by
  induction bytes with
  | nil => simp [tailsAfterSlash]
  | cons byte bytes inductionHypothesis =>
      have split : (∃ before, byte :: bytes = before ++ slash :: rest) ↔
          byte = slash ∧ bytes = rest ∨ ∃ before, bytes = before ++ slash :: rest := by
        constructor
        · rintro ⟨before, same⟩
          rcases List.cons_eq_append_iff.mp same with ⟨-, here⟩ | ⟨before, -, later⟩
          · obtain ⟨isSlash, isRest⟩ := List.cons.inj here
            exact Or.inl ⟨isSlash.symm, isRest.symm⟩
          · exact Or.inr ⟨before, later⟩
        · rintro (⟨rfl, rfl⟩ | ⟨before, rfl⟩)
          · exact ⟨[], rfl⟩
          · exact ⟨byte :: before, rfl⟩
      rw [split, tailsAfterSlash, ← inductionHypothesis]
      split
      · next isSlash => simp [isSlash, eq_comm]
      · next other => simp [other]

/-- A part of a name is left out when there is no slash in it. -/
theorem mem_rests_anyName_iff :
    rest ∈ rests anyName bytes ↔ ∃ name, bytes = name ++ rest ∧ slash ∉ name := by
  rw [rests]
  induction bytes with
  | nil => simp [nameTails]
  | cons byte bytes inductionHypothesis =>
      rw [nameTails, List.mem_cons]
      constructor
      · rintro (rfl | later)
        · exact ⟨[], rfl, List.not_mem_nil⟩
        · split at later
          · contradiction
          · next other =>
              obtain ⟨name, rfl, apart⟩ := inductionHypothesis.mp later
              refine ⟨byte :: name, rfl, fun member => ?_⟩
              rcases List.mem_cons.mp member with same | inside
              · exact other same.symm
              · exact apart inside
      · rintro ⟨name, same, apart⟩
        rcases List.cons_eq_append_iff.mp same with ⟨-, whole⟩ | ⟨name, rfl, later⟩
        · exact Or.inl whole
        · obtain ⟨different, others⟩ := List.ne_and_not_mem_of_not_mem_cons apart
          rw [if_neg (Ne.symm different)]
          exact Or.inr (inductionHypothesis.mpr ⟨name, later, others⟩)

/-- The globs for characters that stand for themselves. -/
def spelled (text : Text) : List Glob :=
  text.map fun char => .literal (String.utf8EncodeChar char)

theorem mem_rests_literal_iff {expected : List UInt8} :
    rest ∈ rests (literal expected) bytes ↔ bytes = expected ++ rest := by
  rw [rests]
  split
  · next start =>
      obtain ⟨more, rfl⟩ := List.isPrefixOf_iff_prefix.mp start
      simp [eq_comm]
  · next other =>
      refine iff_of_false List.not_mem_nil ?_
      rintro rfl
      simp [List.isPrefixOf_iff_prefix] at other

/-- A glob that spells a text matches the bytes of the text. -/
theorem mem_rests_spelled_iff :
    rest ∈ rests (inSequence (spelled text)) bytes ↔ bytes = Text.encodeUtf8 text ++ rest := by
  induction text generalizing bytes with
  | nil =>
      show rest ∈ [bytes] ↔ bytes = rest
      rw [List.mem_singleton, eq_comm]
  | cons char text inductionHypothesis =>
      show rest ∈ rests (sequence (literal (String.utf8EncodeChar char)) (inSequence (spelled text))) bytes ↔ _
      simp only [mem_rests_sequence_iff, mem_rests_literal_iff, inductionHypothesis, Text.encodeUtf8,
        List.flatMap_cons, List.append_assoc]
      constructor
      · rintro ⟨middle, rfl, rfl⟩
        rfl
      · rintro rfl
        exact ⟨_, rfl, rfl⟩

/-- Leading directories match nothing, or everything up to one of the slashes. -/
theorem mem_rests_leadingDirectories_iff :
    rest ∈ rests leadingDirectories bytes ↔ bytes = rest ∨ ∃ before, bytes = before ++ slash :: rest := by
  rw [rests, List.mem_cons, mem_tailsAfterSlash_iff, eq_comm]

/-- A glob of directories and a name accepts the paths that end with the name. -/
theorem accepts_named_iff :
    (inSequence (.leadingDirectories :: spelled text)).accepts path = true ↔
      path = Text.encodeUtf8 text ∨ ∃ before, path = before ++ slash :: Text.encodeUtf8 text := by
  show (sequence leadingDirectories (inSequence (spelled text))).accepts path = true ↔ _
  simp only [accepts_iff, mem_rests_sequence_iff, mem_rests_leadingDirectories_iff, mem_rests_spelled_iff,
    List.append_nil]
  constructor
  · rintro ⟨middle, found, rfl⟩
    exact found
  · exact fun found => ⟨_, found, rfl⟩

/-- A glob of directories and the end of a name accepts the paths that end so. -/
theorem accepts_ending_iff :
    (inSequence (.leadingDirectories :: .anyName :: spelled text)).accepts path = true ↔
      ∃ name, slash ∉ name ∧ (path = name ++ Text.encodeUtf8 text ∨
        ∃ before, path = before ++ slash :: (name ++ Text.encodeUtf8 text)) := by
  show (sequence leadingDirectories (sequence anyName (inSequence (spelled text)))).accepts path = true ↔ _
  simp only [accepts_iff, mem_rests_sequence_iff, mem_rests_leadingDirectories_iff, mem_rests_spelled_iff,
    mem_rests_anyName_iff, List.append_nil]
  constructor
  · rintro ⟨middle, found, last, ⟨name, rfl, apart⟩, rfl⟩
    exact ⟨name, apart, found⟩
  · rintro ⟨name, apart, found⟩
    exact ⟨_, found, _, ⟨name, rfl, apart⟩, rfl⟩

end Matching

section Reading

variable {reading : Reading}

/-- A character that stands for itself wherever it stands on the line of a rule. -/
def IsPlain (char : Char) : Prop :=
  Text.isBlank char = false ∧ char ∉ ['?', '*', '[', '\x7b', '\x7d', ',', '\\', '/', '#', '!']

instance (char : Char) : Decidable (IsPlain char) :=
  inferInstanceAs (Decidable (_ ∧ _))

theorem IsPlain.ne {char other : Char} (plain : IsPlain char)
    (special : other ∈ ['?', '*', '[', '\x7b', '\x7d', ',', '\\', '/', '#', '!']) : char ≠ other := by
  rintro rfl
  exact plain.2 special

/-- An ordinary character of a glob stands for itself. -/
theorem readFrom_cons_of_plain {char : Char} (plain : IsPlain char) (text : Text) :
    readFrom reading (char :: text) = readFrom (reading.pushLiteral char) text := by
  have others := plain.2
  simp only [List.mem_cons, not_or] at others
  rw [readFrom] <;> simp [others]

/-- Characters that stand for themselves are read one after another. -/
theorem readFrom_of_plain (plain : ∀ char ∈ text, IsPlain char) :
    readFrom reading text = { reading with globs := (spelled text).reverse ++ reading.globs }.finish? := by
  induction text generalizing reading with
  | nil =>
      rw [readFrom]
      rfl
  | cons char text inductionHypothesis =>
      obtain ⟨first, others⟩ := List.forall_mem_cons.mp plain
      rw [readFrom_cons_of_plain first, inductionHypothesis others]
      simp [Reading.finish?, Reading.pushLiteral, Reading.push, spelled]

theorem finish?_append_spelled (nonempty : text ≠ []) (closed : reading.braces = []) :
    { reading with globs := (spelled text).reverse ++ reading.globs }.finish? =
      some (inSequence (reading.globs.reverse ++ spelled text)) := by
  obtain ⟨init, last, rfl⟩ := (List.eq_nil_or_concat' text).resolve_left nonempty
  simp [Reading.finish?, closed, spelled]

/-- A name with directories before it is read as a glob for paths that end with it. -/
theorem ofText?_named (nonempty : text ≠ []) (plain : ∀ char ∈ text, IsPlain char) :
    ofText? ('*' :: '*' :: '/' :: text) = some (inSequence (.leadingDirectories :: spelled text)) := by
  have read : ofText? ('*' :: '*' :: '/' :: text) = readFrom (Reading.start.push '/' .leadingDirectories) text := by
    rw [ofText?, readFrom]
    rfl
  rw [read, readFrom_of_plain plain, finish?_append_spelled nonempty rfl]
  rfl

/-- A star before ordinary characters is read as any name that ends with them. -/
theorem ofText?_ending (nonempty : text ≠ []) (plain : ∀ char ∈ text, IsPlain char) :
    ofText? ('*' :: '*' :: '/' :: '*' :: text) =
      some (inSequence (.leadingDirectories :: .anyName :: spelled text)) := by
  have read : ofText? ('*' :: '*' :: '/' :: '*' :: text) =
      readFrom (Reading.start.push '/' .leadingDirectories) ('*' :: text) := by
    rw [ofText?, readFrom]
    rfl
  have star (reading : Reading) : readFrom reading ('*' :: text) = readFrom (reading.push '*' .anyName) text := by
    rw [readFrom]
    rintro rest rfl
    exact (plain '*' List.mem_cons_self).ne (by simp) rfl
  rw [read, star, readFrom_of_plain plain, finish?_append_spelled nonempty rfl]
  rfl

end Reading

section Depth

/-- Braces that stand in one another, around a single character. -/
def nestedText (count : Nat) : Text :=
  List.replicate count '\x7b' ++ 'a' :: List.replicate count '\x7d'

def nested : Nat → Glob
  | 0 => .literal (String.utf8EncodeChar 'a')
  | count + 1 => inBraces [inSequence [nested count]]

theorem width_nested (count : Nat) : width (nested count) = 1 := by
  cases count <;> rfl

theorem nested_ne_empty (count : Nat) : nested count ≠ .empty := by
  cases count <;> nofun

theorem depth_nested (count : Nat) : depth (nested count) = count := by
  induction count with
  | zero => rfl
  | succ count inductionHypothesis =>
      show max (depth (nested count)) 0 + (if width (nested count) + 0 < 2 then 1 else 2) = count + 1
      rw [inductionHypothesis, width_nested]
      simp

/-- One more pair of braces stands around all others. -/
theorem nestedText_succ (count : Nat) (rest : Text) :
    nestedText (count + 1) ++ rest = '\x7b' :: (nestedText count ++ '\x7d' :: rest) := by
  rw [nestedText, List.replicate_succ, List.replicate_succ']
  simp [nestedText]

/-- Braces are read however often they stand in one another. -/
theorem readFrom_nested (count : Nat) (reading : Reading) (rest : Text) :
    ∃ previous, readFrom reading (nestedText count ++ rest) =
      readFrom { reading with globs := nested count :: reading.globs, previous } rest := by
  induction count generalizing reading rest with
  | zero => exact ⟨some 'a', readFrom_cons_of_plain (by decide) rest⟩
  | succ count inductionHypothesis =>
      obtain ⟨previous, inner⟩ := inductionHypothesis
        ⟨[], ⟨reading.globs, []⟩ :: reading.braces, reading.classes, some '\x7b'⟩ ('\x7d' :: rest)
      refine ⟨some '\x7d', ?_⟩
      rw [nestedText_succ, readFrom, inner, readFrom]
      simp [Reading.closeBrace, nested_ne_empty, nested]

/-- The text of nested braces is read as nested braces. -/
theorem ofText?_nested (count : Nat) :
    ofText? ('*' :: '*' :: '/' :: nestedText count) = some (inSequence [.leadingDirectories, nested count]) := by
  have read : ofText? ('*' :: '*' :: '/' :: nestedText count) =
      readFrom (Reading.start.push '/' .leadingDirectories) (nestedText count) := by
    rw [ofText?, readFrom]
    rfl
  obtain ⟨previous, inner⟩ := readFrom_nested count (Reading.start.push '/' .leadingDirectories) []
  rw [List.append_nil] at inner
  rw [read, inner, readFrom]
  cases count <;> rfl

theorem depth_spelled (text : Text) : depth (inSequence (spelled text)) = 0 := by
  induction text with
  | nil => rfl
  | cons char text inductionHypothesis =>
      show max 0 (depth (inSequence (spelled text))) = 0
      rw [inductionHypothesis]
      rfl

/-- A glob of a name compiles. -/
theorem compiles_of_named (text : Text) : (inSequence (.leadingDirectories :: spelled text)).compiles = true := by
  show decide (max 4 (depth (inSequence (spelled text))) + 1 ≤ deepest) = true
  rw [depth_spelled]
  rfl

theorem compiles_of_ending (text : Text) :
    (inSequence (.leadingDirectories :: .anyName :: spelled text)).compiles = true := by
  show decide (max 4 (max 2 (depth (inSequence (spelled text)))) + 1 ≤ deepest) = true
  rw [depth_spelled]
  rfl

/-- Braces that stand in one another too often make a glob that does not compile. -/
theorem not_compiles_of_nested {count : Nat} (many : deepest ≤ count) :
    (inSequence [.leadingDirectories, nested count]).compiles = false := by
  show decide (max 4 (max (depth (nested count)) 0) + 1 ≤ deepest) = false
  rw [depth_nested, decide_eq_false_iff_not]
  omega

end Depth

end BranchCatalog.Glob
