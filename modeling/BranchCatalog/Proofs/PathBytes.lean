import BranchCatalog.Path
import BranchCatalog.Proofs.Text.Utf8
import Mathlib.Data.List.Basic

namespace BranchCatalog

/-- Among the bytes of a character of several bytes is none of those that stand for a character alone. -/
theorem Text.eq_of_mem_utf8EncodeChar {byte : UInt8} {char : Char} (small : byte.toNat < 0x80)
    (member : byte ∈ String.utf8EncodeChar char) : Char.ofNat byte.toNat = char := by
  have apart {number : Nat} (least : 0x80 ≤ number) (most : number < 256) : byte ≠ UInt8.ofNat number := by
    rintro rfl
    rw [toNat_ofNat_of_lt most] at small
    omega
  unfold String.utf8EncodeChar at member
  simp only at member
  split at member
  · next single =>
      rw [List.mem_singleton.mp member, toNat_ofNat_of_lt (by omega)]
      exact Char.ofNat_toNat char
  split at member
  · simp only [List.mem_cons, List.not_mem_nil, or_false] at member
    rcases member with same | same <;> exact absurd same (apart (by omega) (by omega))
  split at member
  · simp only [List.mem_cons, List.not_mem_nil, or_false] at member
    rcases member with same | same | same <;> exact absurd same (apart (by omega) (by omega))
  · simp only [List.mem_cons, List.not_mem_nil, or_false] at member
    rcases member with same | same | same | same <;> exact absurd same (apart (by omega) (by omega))

namespace Path

variable {path : Path} {name : Text} {char : Char} {byte : UInt8}

/-- No character of a path stands for a byte. -/
def IsText (path : Path) : Prop :=
  ∀ char ∈ path, loneByte? char = none

instance (path : Path) : Decidable (IsText path) :=
  List.decidableBAll (fun char => loneByte? char = none) path

/-- The bytes of a path are those of a text. -/
def IsUtf8 (path : Path) : Prop :=
  ∃ text, Text.encodeUtf8 text = bytes path

/-- A path that is a text is shown without a change. -/
theorem encodeUtf8_shown (is : IsUtf8 path) : Text.encodeUtf8 (shown path) = bytes path := by
  obtain ⟨text, same⟩ := is
  rw [shown, ← same, Text.decodeLossy_encodeUtf8]

/-- The bytes of joined paths are those of the one and then those of the other. -/
theorem bytes_append (first second : Path) : bytes (first ++ second) = bytes first ++ bytes second :=
  List.flatMap_append

/-- An ordinary character has its UTF-8 bytes in a path. -/
theorem charBytes_of_loneByte?_eq_none (ordinary : loneByte? char = none) :
    charBytes char = String.utf8EncodeChar char := by
  rw [charBytes, ordinary]

/-- A path of ordinary characters has the bytes of its text. -/
theorem bytes_of_isText (is : IsText path) : bytes path = Text.encodeUtf8 path :=
  List.flatMap_congr fun char member => charBytes_of_loneByte?_eq_none (is char member)

/-- A path without bytes that belong to no character is the path of its bytes. -/
theorem ofBytes_encodeUtf8 (is : IsText path) : ofBytes (Text.encodeUtf8 path) = path := by
  induction path with
  | nil => rw [Text.encodeUtf8, List.flatMap_nil, ofBytes]
  | cons char path inductionHypothesis =>
      obtain ⟨ordinary, rest⟩ := List.forall_mem_cons.mp is
      obtain ⟨byte, bytes, written, read⟩ := Text.readChar_utf8EncodeChar_append char
      rw [Text.encodeUtf8, List.flatMap_cons, written, List.cons_append, ofBytes, read, ← Text.encodeUtf8]
      simp only [Option.filter_some, ordinary, Option.isNone_none, if_true]
      rw [inductionHypothesis rest]

/-- A byte that belongs to no character is none of those that stand for a character alone. -/
theorem le_of_loneByte? (stands : loneByte? char = some byte) : 0x80 ≤ byte.toNat := by
  obtain ⟨last, same⟩ := Option.ite_none_right_eq_some.mp stands
  have valid : char.toNat < 0xd800 ∨ 0xdfff < char.toNat ∧ char.toNat < 0x110000 := char.valid
  rw [← Option.some.inj same, Text.toNat_ofNat_of_lt (by omega)]
  omega

/-- A byte that is a character alone is one of the characters of a path. -/
theorem ofNat_mem_of_mem_bytes (small : byte.toNat < 0x80) (member : byte ∈ bytes path) :
    Char.ofNat byte.toNat ∈ path := by
  obtain ⟨char, inside, byteOf⟩ := List.mem_flatMap.mp member
  cases stands : loneByte? char with
  | none =>
      rw [charBytes_of_loneByte?_eq_none stands] at byteOf
      rwa [Text.eq_of_mem_utf8EncodeChar small byteOf]
  | some lone =>
      rw [charBytes, stands] at byteOf
      rw [List.mem_singleton.mp byteOf] at small
      exact absurd (le_of_loneByte? stands) (Nat.not_le.mpr small)

/-- A character of a single byte that is shown for a path is one of the characters of the path. -/
theorem mem_of_mem_shown (small : char.toNat < 0x80) (nonzero : char ≠ '\x00') (member : char ∈ shown path) :
    char ∈ path := by
  obtain ⟨read, inside, same⟩ := List.mem_map.mp member
  cases read with
  | none =>
      rw [← same] at small
      contradiction
  | some other =>
      obtain rfl : other = char := same
      obtain ⟨byte, isByte, rfl⟩ := Text.exists_of_mem_decodeChars inside small nonzero
      have value : (Char.ofNat byte.toNat).toNat = byte.toNat := Text.toNat_ofNat_toNat byte
      rw [value] at small
      exact ofNat_mem_of_mem_bytes small isByte

/-- A path that is shown in characters of single bytes is the shown text. -/
theorem eq_of_shown_small (canonical : ofBytes (bytes path) = path)
    (small : ∀ char ∈ shown path, char.toNat < 0x80 ∧ char ≠ '\x00') : path = shown path := by
  have ordinary : IsText (shown path) := by
    intro char member
    rw [loneByte?, if_neg]
    have bound := (small char member).1
    omega
  rw [← ofBytes_encodeUtf8 ordinary, shown, Text.encodeUtf8_decodeLossy small, canonical]

theorem shown_ne_nil (nonempty : path ≠ []) : shown path ≠ [] := by
  refine Text.decodeLossy_ne_nil fun none => ?_
  obtain ⟨char, rest, rfl⟩ := List.exists_cons_of_ne_nil nonempty
  have first : charBytes char = [] := by simpa [bytes] using (List.append_eq_nil_iff.mp none).1
  rw [charBytes] at first
  split at first
  · contradiction
  · exact String.utf8EncodeChar_ne_nil first

end Path

/-- A name that something in a directory can have. -/
structure IsFileName (name : Text) : Prop where
  nonempty : name ≠ []
  apart : '/' ∉ name
  not_here : name ≠ ['.']
  not_above : name ≠ ['.', '.']
  ofBytes : Path.ofBytes (Path.bytes name) = name

instance (name : Text) : Decidable (IsFileName name) :=
  decidable_of_iff (name ≠ [] ∧ '/' ∉ name ∧ name ≠ ['.'] ∧ name ≠ ['.', '.'] ∧
      Path.ofBytes (Path.bytes name) = name)
    ⟨fun ⟨nonempty, apart, here, above, ofBytes⟩ => ⟨nonempty, apart, here, above, ofBytes⟩,
      fun is => ⟨is.nonempty, is.apart, is.not_here, is.not_above, is.ofBytes⟩⟩

namespace IsFileName

variable {name other : Text}

/-- Names are told apart by their bytes. -/
theorem eq_of_bytes (is : IsFileName name) (alsoIs : IsFileName other)
    (same : Path.bytes name = Path.bytes other) : name = other := by
  rw [← is.ofBytes, same, alsoIs.ofBytes]

theorem shown_apart (is : IsFileName name) : '/' ∉ Path.shown name :=
  fun member => is.apart (Path.mem_of_mem_shown (by decide) (by decide) member)

theorem shown_ne_here (is : IsFileName name) : Path.shown name ≠ ['.'] := by
  intro here
  have small : ∀ char ∈ Path.shown name, char.toNat < 0x80 ∧ char ≠ '\x00' := by
    intro char member
    rw [here, List.mem_singleton] at member
    subst member
    decide
  exact is.not_here ((Path.eq_of_shown_small is.ofBytes small).trans here)

end IsFileName

end BranchCatalog
